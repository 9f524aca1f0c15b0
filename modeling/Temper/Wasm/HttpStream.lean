import Mathlib
import Temper.Lib.Pipe
import Temper.Wasm.StreamRegistry

/-!
# HTTP body streams

The registry of stream handles. A pair of handles shares a bounded channel of chunks; a reading that
is smaller than the next chunk leaves the rest of it in a map beside the channel. An empty answer
stands for the end of the stream, and also for an empty chunk.

A call that would wait has no result here: it takes effect when it completes.
-/

namespace Temper.Wasm

def streamChannelCapacity : Nat := 64

inductive StreamError
  | wouldBlock
  | closed
  | aborted (message : String)
  | invalidHandle
deriving DecidableEq, Repr

/-- A channel is known by the write handle of its pair. -/
inductive ChannelEnd
  | sender (channel : Nat)
  | receiver (channel : Nat)
deriving DecidableEq, Repr

/-- The queue of a channel, and which of its ends are held. -/
structure Channel where
  queue : List Bytes
  senderOpen : Bool
  receiverOpen : Bool
deriving DecidableEq

/-- Handle ids are counted without the bound of 32 bits. -/
structure HttpStreamRegistry where
  nextId : Nat
  handles : Std.ExtTreeMap Nat ChannelEnd compare
  pendingReads : Std.ExtTreeMap Nat Bytes compare
  channels : Nat → Channel

namespace HttpStreamRegistry

def new : HttpStreamRegistry where
  nextId := 1
  handles := ∅
  pendingReads := ∅
  channels := fun _ => ⟨[], false, false⟩

/-- The registry with the write handle and the read handle of a new channel. -/
def createPair (s : HttpStreamRegistry) : HttpStreamRegistry × Nat × Nat :=
  let writeId := s.nextId
  let readId := s.nextId + 1
  ({ s with
      nextId := s.nextId + 2
      handles := (s.handles.insert writeId (.sender writeId)).insert readId (.receiver writeId)
      channels := Function.update s.channels writeId ⟨[], true, true⟩ },
    writeId, readId)

def senderFor (s : HttpStreamRegistry) (handle : Nat) : Except StreamError Nat :=
  match s.handles[handle]? with
  | some (.sender channel) => .ok channel
  | some (.receiver _) => .error .invalidHandle
  | none => .error .invalidHandle

def receiverFor (s : HttpStreamRegistry) (handle : Nat) : Except StreamError Nat :=
  match s.handles[handle]? with
  | some (.receiver channel) => .ok channel
  | some (.sender _) => .error .invalidHandle
  | none => .error .invalidHandle

def push (s : HttpStreamRegistry) (channel : Nat) (chunk : Bytes) : HttpStreamRegistry :=
  { s with
    channels := Function.update s.channels channel
      { s.channels channel with queue := (s.channels channel).queue ++ [chunk] } }

def write (s : HttpStreamRegistry) (handle : Nat) (chunk : Bytes) :
    Option (HttpStreamRegistry × Except StreamError Nat) :=
  match s.senderFor handle with
  | .error e => some (s, .error e)
  | .ok channel =>
    if !(s.channels channel).receiverOpen then some (s, .error .closed)
    else if (s.channels channel).queue.length ≥ streamChannelCapacity then none
    else some (s.push channel chunk, .ok chunk.length)

def tryWrite (s : HttpStreamRegistry) (handle : Nat) (chunk : Bytes) :
    HttpStreamRegistry × Except StreamError Nat :=
  match s.senderFor handle with
  | .error e => (s, .error e)
  | .ok channel =>
    if !(s.channels channel).receiverOpen then (s, .error .closed)
    else if (s.channels channel).queue.length ≥ streamChannelCapacity then (s, .error .wouldBlock)
    else (s.push channel chunk, .ok chunk.length)

def splitForBoundedReadLocked (s : HttpStreamRegistry) (handle : Nat) (chunk : Bytes)
    (maxBytes : Nat) : HttpStreamRegistry × Bytes :=
  if chunk.length > maxBytes then
    ({ s with pendingReads := s.pendingReads.insert handle (chunk.drop maxBytes) },
      chunk.take maxBytes)
  else (s, chunk)

def takePendingRead (s : HttpStreamRegistry) (handle : Nat) (maxBytes : Nat) :
    Option (HttpStreamRegistry × Bytes) :=
  match s.pendingReads[handle]? with
  | none => none
  | some pending =>
    some (splitForBoundedReadLocked { s with pendingReads := s.pendingReads.erase handle } handle
      pending maxBytes)

/-- The next chunk of a channel, or none of them when the sender is gone. -/
def recv (s : HttpStreamRegistry) (channel : Nat) : Option (HttpStreamRegistry × Option Bytes) :=
  match (s.channels channel).queue with
  | chunk :: queue =>
    some ({ s with
      channels := Function.update s.channels channel { s.channels channel with queue } },
      some chunk)
  | [] => if (s.channels channel).senderOpen then none else some (s, none)

def readBounded (s : HttpStreamRegistry) (handle maxBytes : Nat) :
    Option (HttpStreamRegistry × Except StreamError Bytes) :=
  if maxBytes = 0 then
    some (s, .error (.aborted "read buffer capacity must be greater than zero"))
  else
    match s.receiverFor handle with
    | .error e => some (s, .error e)
    | .ok channel =>
      match s.takePendingRead handle maxBytes with
      | some (s, chunk) => some (s, .ok chunk)
      | none =>
        match s.recv channel with
        | none => none
        | some (s, some chunk) =>
          let (s, chunk) := s.splitForBoundedReadLocked handle chunk maxBytes
          some (s, .ok chunk)
        | some (s, none) => some (s, .ok [])

/-- Let go of one end of a channel. -/
def release (s : HttpStreamRegistry) : ChannelEnd → HttpStreamRegistry
  | .sender channel =>
    { s with
      channels := Function.update s.channels channel
        { s.channels channel with senderOpen := false } }
  | .receiver channel =>
    { s with
      channels := Function.update s.channels channel
        { s.channels channel with receiverOpen := false } }

def close (s : HttpStreamRegistry) (handle : Nat) : HttpStreamRegistry × Except StreamError Unit :=
  let s := { s with pendingReads := s.pendingReads.erase handle }
  match s.handles[handle]? with
  | some held => ({ s with handles := s.handles.erase handle }.release held, .ok ())
  | none => (s, .error .invalidHandle)

/-! ### Runs -/

inductive Call
  | createPair
  | write (handle : Nat) (chunk : Bytes)
  | tryWrite (handle : Nat) (chunk : Bytes)
  | readBounded (handle maxBytes : Nat)
  | close (handle : Nat)
deriving DecidableEq

inductive Answer
  | pair (writeHandle readHandle : Nat)
  | written (result : Except StreamError Nat)
  | read (result : Except StreamError Bytes)
  | closed (result : Except StreamError Unit)

def perform (s : HttpStreamRegistry) : Call → Option (HttpStreamRegistry × Answer)
  | .createPair =>
    let (s, writeHandle, readHandle) := s.createPair
    some (s, .pair writeHandle readHandle)
  | .write handle chunk => (s.write handle chunk).map fun r => (r.1, .written r.2)
  | .tryWrite handle chunk =>
    let (s, result) := s.tryWrite handle chunk
    some (s, .written result)
  | .readBounded handle maxBytes => (s.readBounded handle maxBytes).map fun r => (r.1, .read r.2)
  | .close handle =>
    let (s, result) := s.close handle
    some (s, .closed result)

/-- The answers to a list of calls, if none of them waits. -/
def trace (s : HttpStreamRegistry) : List Call → Option (List (Call × Answer) × HttpStreamRegistry)
  | [] => some ([], s)
  | c :: calls => do
    let (s, answer) ← s.perform c
    let (rest, s) ← s.trace calls
    some ((c, answer) :: rest, s)

/-- The event a completed call is for the stream from `w` to `r`. -/
def eventOf (w r : Nat) : Call × Answer → Option (Pipe.Event UInt8)
  | (.write handle chunk, .written (.ok _)) => if handle = w then some (.wrote chunk) else none
  | (.tryWrite handle chunk, .written (.ok _)) => if handle = w then some (.wrote chunk) else none
  | (.readBounded handle maxBytes, .read (.ok chunk)) =>
    if handle = r then some (.got maxBytes chunk) else none
  | (.close handle, .closed (.ok _)) => if handle = w then some .closed else none
  | _ => none

def eventsOf (w r : Nat) (t : List (Call × Answer)) : List (Pipe.Event UInt8) :=
  t.filterMap (eventOf w r)

/-- The chunks written with success to a handle. -/
def writtenTo (w : Nat) (t : List (Call × Answer)) : List Bytes :=
  t.filterMap fun
    | (.write handle chunk, .written (.ok _)) => if handle = w then some chunk else none
    | (.tryWrite handle chunk, .written (.ok _)) => if handle = w then some chunk else none
    | _ => none

/-- The successful readings of a handle with their limits. -/
def readsOf (r : Nat) (t : List (Call × Answer)) : List (Nat × Bytes) :=
  t.filterMap fun
    | (.readBounded handle maxBytes, .read (.ok chunk)) =>
      if handle = r then some (maxBytes, chunk) else none
    | _ => none

/-- No reading exceeds its limit, and the readings before the first empty one are all that was
written. -/
def DeliversExactly (w r : Nat) (t : List (Call × Answer)) : Prop :=
  (∀ x ∈ readsOf r t, x.2.length ≤ x.1) ∧
  ∀ front back limit, readsOf r t = front ++ (limit, []) :: back → [] ∉ front.map Prod.snd →
    (front.map Prod.snd).flatten = (writtenTo w t).flatten

/-! ### A pair of handles as a pipe -/

/-- Handles are given out in pairs, and only for ids below the next one. -/
structure Sound (s : HttpStreamRegistry) : Prop where
  sender : ∀ h c : Nat, s.handles[h]? = some (.sender c) → h = c
  receiver : ∀ h c : Nat, s.handles[h]? = some (.receiver c) → h = c + 1
  unused : ∀ h : Nat, s.nextId ≤ h → s.handles[h]? = none ∧ s.pendingReads[h]? = none

/-- The stream from `w` to the handle after it, among any other handles. -/
structure Paired (s : HttpStreamRegistry) (w : Nat) : Prop extends Sound s where
  reader : s.handles[w + 1]? = some (.receiver w)
  listening : (s.channels w).receiverOpen = true
  writer : s.handles[w]? = if (s.channels w).senderOpen then some (.sender w) else none

def pipeOf (s : HttpStreamRegistry) (w : Nat) : Pipe.State UInt8 :=
  ⟨s.pendingReads[w + 1]?, (s.channels w).queue, !(s.channels w).senderOpen⟩

/-- What a completed call is for the pipe of a pair: its event, or nothing. -/
def Follows (w : Nat) (s : HttpStreamRegistry) (event : Option (Pipe.Event UInt8))
    (s' : HttpStreamRegistry) : Prop :=
  Paired s' w ∧
    match event with
    | some e => Pipe.Step (s.pipeOf w) e (s'.pipeOf w)
    | none => s'.pipeOf w = s.pipeOf w

section Simulation

variable {s s' : HttpStreamRegistry} {w : Nat}

lemma Paired.lt_nextId (h : Paired s w) : w + 1 < s.nextId := by
  by_contra hge
  have := (h.unused (w + 1) (not_lt.mp hge)).1
  rw [h.reader] at this
  cases this

/-- A call that touches neither handle, nor the channel, nor what is pending for the reader. -/
lemma Paired.frame (h : Paired s w) (hsound : Sound s') (hw : s'.handles[w]? = s.handles[w]?)
    (hr : s'.handles[w + 1]? = s.handles[w + 1]?) (hchannel : s'.channels w = s.channels w)
    (hpending : s'.pendingReads[w + 1]? = s.pendingReads[w + 1]?) : Follows w s none s' := by
  refine ⟨⟨hsound, hr.trans h.reader, ?_, ?_⟩, ?_⟩
  · rw [hchannel]
    exact h.listening
  · rw [hchannel, hw]
    exact h.writer
  · show s'.pipeOf w = s.pipeOf w
    rw [pipeOf, hchannel, hpending, pipeOf]

lemma Sound.createPair (h : Sound s) : Sound s.createPair.1 := by
  refine ⟨?_, ?_, ?_⟩
  · intro k c hk
    simp only [HttpStreamRegistry.createPair, Keyed.getElem?_insert_eq] at hk
    split_ifs at hk with h₁ h₂
    · cases hk
    · cases hk
      exact h₂.symm
    · exact h.sender k c hk
  · intro k c hk
    simp only [HttpStreamRegistry.createPair, Keyed.getElem?_insert_eq] at hk
    split_ifs at hk with h₁ h₂
    · cases hk
      exact h₁.symm
    · cases hk
    · exact h.receiver k c hk
  · intro k hk
    simp only [HttpStreamRegistry.createPair] at hk
    simp only [HttpStreamRegistry.createPair, Keyed.getElem?_insert_eq]
    rw [if_neg (by omega), if_neg (by omega)]
    exact h.unused k (by omega)

lemma Paired.createPair (h : Paired s w) : Follows w s none s.createPair.1 := by
  have hlt := h.lt_nextId
  apply h.frame h.toSound.createPair
  · simp only [HttpStreamRegistry.createPair, Keyed.getElem?_insert_eq]
    rw [if_neg (by omega), if_neg (by omega)]
  · simp only [HttpStreamRegistry.createPair, Keyed.getElem?_insert_eq]
    rw [if_neg (by omega), if_neg (by omega)]
  · exact Function.update_of_ne (by omega) _ _
  · rfl

/-- The pair that was just created is a pipe with nothing in it. -/
lemma Sound.paired_createPair (h : Sound s) :
    Paired s.createPair.1 s.nextId ∧ s.createPair.1.pipeOf s.nextId = Pipe.empty := by
  refine ⟨⟨h.createPair, ?_, ?_, ?_⟩, ?_⟩
  · simp [HttpStreamRegistry.createPair]
  · simp [HttpStreamRegistry.createPair]
  · simp only [HttpStreamRegistry.createPair, Keyed.getElem?_insert_eq, Function.update_self]
    simp
  · have := (h.unused (s.nextId + 1) (by omega)).2
    simp [pipeOf, HttpStreamRegistry.createPair, Pipe.empty, this]

/-- A chunk that is sent through a handle is written to the channel of that handle. -/
lemma Paired.push (h : Paired s w) {c : Nat} (hc : s.handles[c]? = some (.sender c))
    (chunk : Bytes) :
    Follows w s (if c = w then some (.wrote chunk) else none) (s.push c chunk) := by
  have hsound : Sound (s.push c chunk) := ⟨h.sender, h.receiver, h.unused⟩
  by_cases hcw : c = w
  · subst hcw
    rw [if_pos rfl]
    have hopen : (s.channels c).senderOpen = true := by
      have := h.writer
      rw [hc] at this
      by_contra hne
      simp [hne] at this
    refine ⟨⟨hsound, h.reader, ?_, ?_⟩, ?_⟩
    · simpa [HttpStreamRegistry.push] using h.listening
    · simpa [HttpStreamRegistry.push] using h.writer
    · have hpipe : (s.push c chunk).pipeOf c =
          { s.pipeOf c with queue := (s.pipeOf c).queue ++ [chunk] } := by
        simp [pipeOf, HttpStreamRegistry.push]
      show Pipe.Step _ _ _
      rw [hpipe]
      exact .wrote chunk (by simp [pipeOf, hopen])
  · rw [if_neg hcw]
    exact h.frame hsound rfl rfl (Function.update_of_ne (Ne.symm hcw) _ _) rfl

variable {handle : Nat}

lemma Sound.senderFor (h : Sound s) {c : Nat} (hc : s.senderFor handle = .ok c) :
    handle = c ∧ s.handles[c]? = some (.sender c) := by
  unfold HttpStreamRegistry.senderFor at hc
  split at hc
  · rename_i channel heq
    cases hc
    obtain rfl := h.sender _ _ heq
    exact ⟨rfl, heq⟩
  · cases hc
  · cases hc

lemma Sound.receiverFor (h : Sound s) {c : Nat} (hc : s.receiverFor handle = .ok c) :
    handle = c + 1 := by
  unfold HttpStreamRegistry.receiverFor at hc
  split at hc
  · rename_i channel heq
    cases hc
    exact h.receiver _ _ heq
  · cases hc
  · cases hc

lemma exists_of_receiverFor {c : Nat} (hc : s.receiverFor handle = .ok c) :
    ∃ held, s.handles[handle]? = some held := by
  unfold HttpStreamRegistry.receiverFor at hc
  cases hget : s.handles[handle]? with
  | none => simp [hget] at hc
  | some held => exact ⟨held, rfl⟩

variable {result : Except StreamError Nat}

lemma Paired.tryWrite (h : Paired s w) {chunk : Bytes}
    (heq : s.tryWrite handle chunk = (s', result)) :
    Follows w s (eventOf w (w + 1) (.tryWrite handle chunk, .written result)) s' := by
  unfold HttpStreamRegistry.tryWrite at heq
  cases hsender : s.senderFor handle with
  | error e =>
    rw [hsender] at heq
    cases heq
    exact ⟨h, rfl⟩
  | ok channel =>
    rw [hsender] at heq
    dsimp only at heq
    obtain ⟨rfl, hheld⟩ := h.senderFor hsender
    split_ifs at heq
    · cases heq
      exact ⟨h, rfl⟩
    · cases heq
      exact ⟨h, rfl⟩
    · cases heq
      exact h.push hheld chunk

/-- A write that does not wait is a try that finds room, or fails as the try does. -/
lemma Paired.write (h : Paired s w) {chunk : Bytes}
    (heq : s.write handle chunk = some (s', result)) :
    Follows w s (eventOf w (w + 1) (.write handle chunk, .written result)) s' := by
  have htry : s.tryWrite handle chunk = (s', result) := by
    unfold HttpStreamRegistry.write at heq
    unfold HttpStreamRegistry.tryWrite
    cases hsender : s.senderFor handle with
    | error e =>
      rw [hsender] at heq
      exact Option.some.inj heq
    | ok channel =>
      rw [hsender] at heq
      dsimp only at heq ⊢
      split_ifs at heq with h₁ h₂
      · rw [if_pos h₁]
        exact Option.some.inj heq
      · rw [if_neg h₁, if_neg h₂]
        exact Option.some.inj heq
  have := h.tryWrite htry
  cases result with
  | error e => exact this
  | ok n => exact this

@[simp] lemma channels_splitForBoundedReadLocked (handle : Nat) (chunk : Bytes) (maxBytes : Nat) :
    (s.splitForBoundedReadLocked handle chunk maxBytes).1.channels = s.channels := by
  unfold splitForBoundedReadLocked
  split_ifs <;> rfl

@[simp] lemma handles_splitForBoundedReadLocked (handle : Nat) (chunk : Bytes) (maxBytes : Nat) :
    (s.splitForBoundedReadLocked handle chunk maxBytes).1.handles = s.handles := by
  unfold splitForBoundedReadLocked
  split_ifs <;> rfl

/-- What is left of a chunk is kept for the handle that read it. -/
lemma getElem?_splitForBoundedReadLocked (handle : Nat) (chunk : Bytes) (maxBytes k : Nat) :
    (s.splitForBoundedReadLocked handle chunk maxBytes).1.pendingReads[k]? =
      if handle = k ∧ chunk.length > maxBytes then some (chunk.drop maxBytes)
      else s.pendingReads[k]? := by
  unfold splitForBoundedReadLocked
  by_cases hlong : chunk.length > maxBytes
  · simp [hlong, Keyed.getElem?_insert_eq]
  · simp [hlong]

/-- Splitting a chunk for the reader of the pair is splitting it at the pipe, when nothing is
pending there. -/
lemma pipeOf_splitForBoundedReadLocked (chunk : Bytes) (maxBytes : Nat)
    (hnone : s.pendingReads[w + 1]? = none) :
    (s.splitForBoundedReadLocked (w + 1) chunk maxBytes).1.pipeOf w =
      (Pipe.split (s.pipeOf w) chunk maxBytes).1 ∧
    (s.splitForBoundedReadLocked (w + 1) chunk maxBytes).2 =
      (Pipe.split (s.pipeOf w) chunk maxBytes).2 := by
  rw [pipeOf, getElem?_splitForBoundedReadLocked, channels_splitForBoundedReadLocked,
    splitForBoundedReadLocked, Pipe.split]
  by_cases hlong : chunk.length > maxBytes
  · simp [hlong, pipeOf]
  · simp [hlong, hnone, pipeOf]

lemma Sound.splitForBoundedReadLocked (h : Sound s) {held : ChannelEnd}
    (hheld : s.handles[handle]? = some held) (chunk : Bytes) (maxBytes : Nat) :
    Sound (s.splitForBoundedReadLocked handle chunk maxBytes).1 := by
  refine ⟨?_, ?_, ?_⟩
  · rw [handles_splitForBoundedReadLocked]
    exact h.sender
  · rw [handles_splitForBoundedReadLocked]
    exact h.receiver
  · intro k hk
    have hnext : (s.splitForBoundedReadLocked handle chunk maxBytes).1.nextId = s.nextId := by
      unfold HttpStreamRegistry.splitForBoundedReadLocked
      split_ifs <;> rfl
    rw [hnext] at hk
    have hne : handle ≠ k := by
      rintro rfl
      rw [(h.unused _ hk).1] at hheld
      cases hheld
    rw [handles_splitForBoundedReadLocked, getElem?_splitForBoundedReadLocked]
    simpa [hne] using h.unused k hk

lemma Paired.of_handles_eq (h : Paired s w) (hsound : Sound s') (hhandles : s'.handles = s.handles)
    (hsender : (s'.channels w).senderOpen = (s.channels w).senderOpen)
    (hreceiver : (s'.channels w).receiverOpen = (s.channels w).receiverOpen) : Paired s' w := by
  refine ⟨hsound, ?_, hreceiver.trans h.listening, ?_⟩
  · rw [hhandles]
    exact h.reader
  · rw [hhandles, hsender]
    exact h.writer

lemma Paired.splitForBoundedReadLocked (h : Paired s w) {held : ChannelEnd}
    (hheld : s.handles[handle]? = some held) (chunk : Bytes) (maxBytes : Nat) :
    Paired (s.splitForBoundedReadLocked handle chunk maxBytes).1 w := by
  apply h.of_handles_eq (h.toSound.splitForBoundedReadLocked hheld chunk maxBytes)
  · simp
  · simp
  · simp

/-- The registry without what is pending for a handle, and without the first chunk of a channel. -/
def dropPending (s : HttpStreamRegistry) (handle : Nat) : HttpStreamRegistry :=
  { s with pendingReads := s.pendingReads.erase handle }

def dropChunk (s : HttpStreamRegistry) (channel : Nat) (queue : List Bytes) : HttpStreamRegistry :=
  { s with channels := Function.update s.channels channel { s.channels channel with queue } }

lemma Sound.dropPending (h : Sound s) (handle : Nat) : Sound (s.dropPending handle) := by
  refine ⟨h.sender, h.receiver, fun k hk => ⟨(h.unused k hk).1, ?_⟩⟩
  simp only [HttpStreamRegistry.dropPending, Keyed.getElem?_erase_eq, (h.unused k hk).2, ite_self]

lemma Paired.dropPending (h : Paired s w) (handle : Nat) : Paired (s.dropPending handle) w :=
  h.of_handles_eq (h.toSound.dropPending handle) rfl rfl rfl

lemma Sound.dropChunk (h : Sound s) (channel : Nat) (queue : List Bytes) :
    Sound (s.dropChunk channel queue) := ⟨h.sender, h.receiver, h.unused⟩

lemma Paired.dropChunk (h : Paired s w) (channel : Nat) (queue : List Bytes) :
    Paired (s.dropChunk channel queue) w := by
  have hsound := h.toSound.dropChunk channel queue
  by_cases hchannel : channel = w
  · subst hchannel
    apply h.of_handles_eq hsound rfl <;> simp [HttpStreamRegistry.dropChunk]
  · have hother : (s.dropChunk channel queue).channels w = s.channels w :=
      Function.update_of_ne (Ne.symm hchannel) _ _
    apply h.of_handles_eq hsound rfl <;> rw [hother]

variable {maxBytes : Nat}

/-- A reading goes on with what is pending for its handle, or receives from its channel. -/
lemma readBounded_eq {channel : Nat} (hpos : 0 < maxBytes)
    (hreceiver : s.receiverFor handle = .ok channel) :
    s.readBounded handle maxBytes =
      match s.pendingReads[handle]? with
      | some chunk =>
        let r := (s.dropPending handle).splitForBoundedReadLocked handle chunk maxBytes
        some (r.1, .ok r.2)
      | none =>
        match (s.channels channel).queue with
        | chunk :: queue =>
          let r := (s.dropChunk channel queue).splitForBoundedReadLocked handle chunk maxBytes
          some (r.1, .ok r.2)
        | [] => if (s.channels channel).senderOpen then none else some (s, .ok []) := by
  simp only [readBounded, if_neg hpos.ne', hreceiver, takePendingRead, recv]
  cases s.pendingReads[handle]? with
  | some chunk => rfl
  | none =>
    cases (s.channels channel).queue with
    | cons chunk queue => rfl
    | nil => cases (s.channels channel).senderOpen <;> rfl

/-- A reading of the pair is a reading of the pipe, and waits just when that does. -/
lemma Paired.readBounded_reader (h : Paired s w) (hpos : 0 < maxBytes) :
    match Pipe.read (s.pipeOf w) maxBytes with
    | some (p, piece) => ∃ s', s.readBounded (w + 1) maxBytes = some (s', .ok piece) ∧
        Paired s' w ∧ s'.pipeOf w = p
    | none => s.readBounded (w + 1) maxBytes = none := by
  have hreceiver : s.receiverFor (w + 1) = .ok w := by
    rw [HttpStreamRegistry.receiverFor, h.reader]
  rw [readBounded_eq hpos hreceiver]
  cases hpending : s.pendingReads[w + 1]? with
  | some chunk =>
    have hnone : (s.dropPending (w + 1)).pendingReads[w + 1]? = none := by
      simp [HttpStreamRegistry.dropPending]
    obtain ⟨hpipe, hpiece⟩ :=
      @pipeOf_splitForBoundedReadLocked (s.dropPending (w + 1)) w chunk maxBytes hnone
    have hsplit : Pipe.split ((s.dropPending (w + 1)).pipeOf w) chunk maxBytes =
        Pipe.split (s.pipeOf w) chunk maxBytes := by
      rw [Pipe.split, Pipe.split]
      rfl
    rw [hsplit] at hpipe hpiece
    have hread : Pipe.read (s.pipeOf w) maxBytes =
        some (Pipe.split (s.pipeOf w) chunk maxBytes) := by
      simp [Pipe.read, pipeOf, hpending]
    rw [hread]
    refine ⟨_, ?_, (h.dropPending (w + 1)).splitForBoundedReadLocked h.reader chunk maxBytes, hpipe⟩
    exact congrArg (fun piece => some (_, Except.ok piece)) hpiece
  | none =>
    cases hqueue : (s.channels w).queue with
    | cons chunk queue =>
      have hnone : (s.dropChunk w queue).pendingReads[w + 1]? = none := hpending
      obtain ⟨hpipe, hpiece⟩ :=
        @pipeOf_splitForBoundedReadLocked (s.dropChunk w queue) w chunk maxBytes hnone
      have hdrop : (s.dropChunk w queue).pipeOf w = { s.pipeOf w with queue } := by
        simp [pipeOf, HttpStreamRegistry.dropChunk]
      rw [hdrop] at hpipe hpiece
      have hread : Pipe.read (s.pipeOf w) maxBytes =
          some (Pipe.split { s.pipeOf w with queue } chunk maxBytes) := by
        simp [Pipe.read, pipeOf, hpending, hqueue]
      rw [hread]
      refine ⟨_, ?_, (h.dropChunk w queue).splitForBoundedReadLocked h.reader chunk maxBytes, hpipe⟩
      exact congrArg (fun piece => some (_, Except.ok piece)) hpiece
    | nil =>
      cases hopen : (s.channels w).senderOpen with
      | true =>
        have hread : Pipe.read (s.pipeOf w) maxBytes = none := by
          simp [Pipe.read, pipeOf, hpending, hqueue, hopen]
        rw [hread]
        rfl
      | false =>
        have hread : Pipe.read (s.pipeOf w) maxBytes = some (s.pipeOf w, []) := by
          simp [Pipe.read, pipeOf, hpending, hqueue, hopen]
        rw [hread]
        exact ⟨s, rfl, h, rfl⟩

/-- A reading of another handle leaves the pair alone. -/
lemma Paired.readBounded_other (h : Paired s w) (hne : handle ≠ w + 1)
    {result : Except StreamError Bytes} (heq : s.readBounded handle maxBytes = some (s', result)) :
    Follows w s none s' := by
  by_cases hzero : maxBytes = 0
  · rw [readBounded, if_pos hzero] at heq
    cases heq
    exact ⟨h, rfl⟩
  · cases hreceiver : s.receiverFor handle with
    | error e =>
      rw [readBounded, if_neg hzero, hreceiver] at heq
      cases heq
      exact ⟨h, rfl⟩
    | ok channel =>
      have hhandle := h.receiverFor hreceiver
      have hchannel : channel ≠ w := by omega
      obtain ⟨held, hheld⟩ := exists_of_receiverFor hreceiver
      rw [readBounded_eq (Nat.pos_of_ne_zero hzero) hreceiver] at heq
      cases hpending : s.pendingReads[handle]? with
      | some chunk =>
        rw [hpending] at heq
        cases heq
        apply h.frame
        · exact (h.toSound.dropPending handle).splitForBoundedReadLocked hheld chunk maxBytes
        · simp [HttpStreamRegistry.dropPending]
        · simp [HttpStreamRegistry.dropPending]
        · simp [HttpStreamRegistry.dropPending]
        · rw [getElem?_splitForBoundedReadLocked, if_neg (fun hand => hne hand.1)]
          simp only [HttpStreamRegistry.dropPending, Keyed.getElem?_erase_eq, if_neg hne]
      | none =>
        rw [hpending] at heq
        dsimp only at heq
        cases hqueue : (s.channels channel).queue with
        | cons chunk queue =>
          rw [hqueue] at heq
          cases heq
          apply h.frame
          · exact (h.toSound.dropChunk channel queue).splitForBoundedReadLocked hheld chunk maxBytes
          · simp [HttpStreamRegistry.dropChunk]
          · simp [HttpStreamRegistry.dropChunk]
          · rw [channels_splitForBoundedReadLocked]
            exact Function.update_of_ne (Ne.symm hchannel) _ _
          · rw [getElem?_splitForBoundedReadLocked, if_neg (fun hand => hne hand.1)]
            rfl
        | nil =>
          rw [hqueue] at heq
          dsimp only at heq
          split_ifs at heq
          cases heq
          exact ⟨h, rfl⟩

lemma Paired.readBounded (h : Paired s w) {result : Except StreamError Bytes}
    (heq : s.readBounded handle maxBytes = some (s', result)) :
    Follows w s (eventOf w (w + 1) (.readBounded handle maxBytes, .read result)) s' := by
  by_cases hhandle : handle = w + 1
  · subst hhandle
    by_cases hzero : maxBytes = 0
    · rw [HttpStreamRegistry.readBounded, if_pos hzero] at heq
      cases heq
      exact ⟨h, rfl⟩
    · have hpos := Nat.pos_of_ne_zero hzero
      have hreader := h.readBounded_reader hpos
      cases hread : Pipe.read (s.pipeOf w) maxBytes with
      | none =>
        rw [hread] at hreader
        rw [hreader] at heq
        cases heq
      | some answer =>
        obtain ⟨p, piece⟩ := answer
        rw [hread] at hreader
        obtain ⟨s₁, heq₁, hpaired, rfl⟩ := hreader
        rw [heq₁] at heq
        cases heq
        simp only [eventOf, if_true]
        exact ⟨hpaired, .got hpos hread⟩
  · have hother := h.readBounded_other hhandle heq
    cases result with
    | error e => exact hother
    | ok chunk => simpa only [eventOf, if_neg hhandle] using hother

@[simp] lemma handles_release (held : ChannelEnd) : (s.release held).handles = s.handles := by
  cases held <;> rfl

@[simp] lemma pendingReads_release (held : ChannelEnd) :
    (s.release held).pendingReads = s.pendingReads := by
  cases held <;> rfl

@[simp] lemma nextId_release (held : ChannelEnd) : (s.release held).nextId = s.nextId := by
  cases held <;> rfl

/-- The registry after a handle that was held is closed. -/
def closeHeld (s : HttpStreamRegistry) (handle : Nat) (held : ChannelEnd) : HttpStreamRegistry :=
  { s.dropPending handle with handles := s.handles.erase handle }.release held

lemma Sound.closeHeld (h : Sound s) (handle : Nat) (held : ChannelEnd) :
    Sound (s.closeHeld handle held) := by
  have hhandles : ∀ (k : Nat) (e : ChannelEnd), (s.closeHeld handle held).handles[k]? = some e →
      s.handles[k]? = some e := by
    intro k e hk
    simp only [HttpStreamRegistry.closeHeld, handles_release, Keyed.getElem?_erase_eq] at hk
    split_ifs at hk
    exact hk
  refine ⟨fun k c hk => h.sender k c (hhandles k _ hk),
    fun k c hk => h.receiver k c (hhandles k _ hk), fun k hk => ?_⟩
  simp only [HttpStreamRegistry.closeHeld, nextId_release] at hk
  have hdrop := (h.dropPending handle).unused k hk
  simp only [HttpStreamRegistry.closeHeld, handles_release, pendingReads_release,
    Keyed.getElem?_erase_eq, (h.unused k hk).1, ite_self, hdrop.2, and_self]

lemma Paired.close (h : Paired s w) (hne : handle ≠ w + 1) {result : Except StreamError Unit}
    (heq : s.close handle = (s', result)) :
    Follows w s (eventOf w (w + 1) (.close handle, .closed result)) s' := by
  have hpending : (s.dropPending handle).pendingReads[w + 1]? = s.pendingReads[w + 1]? := by
    simp only [HttpStreamRegistry.dropPending, Keyed.getElem?_erase_eq, if_neg hne]
  unfold HttpStreamRegistry.close at heq
  dsimp only at heq
  cases hheld : s.handles[handle]? with
  | none =>
    rw [hheld] at heq
    cases heq
    exact h.frame (h.toSound.dropPending handle) rfl rfl rfl hpending
  | some held =>
    rw [hheld] at heq
    obtain ⟨rfl, rfl⟩ := Prod.mk.inj heq
    have hsound := h.toSound.closeHeld handle held
    have hkeep : (s.closeHeld handle held).pendingReads[w + 1]? = s.pendingReads[w + 1]? := by
      rw [closeHeld, pendingReads_release]
      exact hpending
    have hreader : (s.closeHeld handle held).handles[w + 1]? = s.handles[w + 1]? := by
      rw [closeHeld, handles_release]
      simp only [Keyed.getElem?_erase_eq, if_neg hne]
    by_cases hw : handle = w
    · subst hw
      obtain rfl : held = .sender handle := by
        have := h.writer
        rw [hheld] at this
        split_ifs at this
        exact Option.some.inj this
      simp only [eventOf, if_true]
      refine ⟨⟨hsound, hreader.trans h.reader, ?_, ?_⟩, ?_⟩
      · simpa [closeHeld, release, HttpStreamRegistry.dropPending] using h.listening
      · simp [release]
      · have hpipe : (s.closeHeld handle (.sender handle)).pipeOf handle =
            { s.pipeOf handle with closed := true } := by
          rw [pipeOf, hkeep]
          simp [closeHeld, release, HttpStreamRegistry.dropPending, pipeOf]
        show Pipe.Step _ _ ((s.closeHeld handle (.sender handle)).pipeOf handle)
        rw [hpipe]
        exact .closed
    · simp only [eventOf, if_neg hw]
      apply h.frame hsound _ hreader _ hkeep
      · rw [closeHeld, handles_release]
        simp only [Keyed.getElem?_erase_eq, if_neg hw]
      · cases held with
        | sender c =>
          have := h.sender handle c hheld
          exact Function.update_of_ne (by omega) _ _
        | receiver c =>
          have := h.receiver handle c hheld
          exact Function.update_of_ne (by omega) _ _

/-- Every call but the closing of the reader is an event of the pipe, or none of its concern. -/
lemma Paired.perform (h : Paired s w) {c : Call} (hc : c ≠ .close (w + 1)) {answer : Answer}
    (heq : s.perform c = some (s', answer)) :
    Follows w s (eventOf w (w + 1) (c, answer)) s' := by
  cases c with
  | createPair =>
    cases heq
    exact h.createPair
  | write handle chunk =>
    obtain ⟨⟨s₁, result⟩, hwrite, heq⟩ := Option.map_eq_some_iff.mp heq
    cases heq
    exact h.write hwrite
  | tryWrite handle chunk =>
    cases heq
    exact h.tryWrite rfl
  | readBounded handle maxBytes =>
    obtain ⟨⟨s₁, result⟩, hread, heq⟩ := Option.map_eq_some_iff.mp heq
    cases heq
    exact h.readBounded hread
  | close handle =>
    cases heq
    exact h.close (fun heq => hc (by rw [heq])) rfl

/-! ### Any calls keep the handles in order -/

lemma Sound.push (h : Sound s) (channel : Nat) (chunk : Bytes) : Sound (s.push channel chunk) :=
  ⟨h.sender, h.receiver, h.unused⟩

lemma Sound.tryWrite (h : Sound s) (handle : Nat) (chunk : Bytes) :
    Sound (s.tryWrite handle chunk).1 := by
  unfold HttpStreamRegistry.tryWrite
  cases s.senderFor handle with
  | error e => exact h
  | ok channel =>
    dsimp only
    split_ifs
    · exact h
    · exact h
    · exact h.push channel chunk

lemma Sound.write (h : Sound s) {chunk : Bytes} (heq : s.write handle chunk = some (s', result)) :
    Sound s' := by
  unfold HttpStreamRegistry.write at heq
  cases hsender : s.senderFor handle with
  | error e =>
    rw [hsender] at heq
    cases heq
    exact h
  | ok channel =>
    rw [hsender] at heq
    dsimp only at heq
    split_ifs at heq
    · cases heq
      exact h
    · cases heq
      exact h.push channel chunk

lemma Sound.readBounded (h : Sound s) {result : Except StreamError Bytes}
    (heq : s.readBounded handle maxBytes = some (s', result)) : Sound s' := by
  by_cases hzero : maxBytes = 0
  · rw [HttpStreamRegistry.readBounded, if_pos hzero] at heq
    cases heq
    exact h
  · cases hreceiver : s.receiverFor handle with
    | error e =>
      rw [HttpStreamRegistry.readBounded, if_neg hzero, hreceiver] at heq
      cases heq
      exact h
    | ok channel =>
      obtain ⟨held, hheld⟩ := exists_of_receiverFor hreceiver
      rw [readBounded_eq (Nat.pos_of_ne_zero hzero) hreceiver] at heq
      cases hpending : s.pendingReads[handle]? with
      | some chunk =>
        rw [hpending] at heq
        cases heq
        exact (h.dropPending handle).splitForBoundedReadLocked hheld chunk maxBytes
      | none =>
        rw [hpending] at heq
        dsimp only at heq
        cases hqueue : (s.channels channel).queue with
        | cons chunk queue =>
          rw [hqueue] at heq
          cases heq
          exact (h.dropChunk channel queue).splitForBoundedReadLocked hheld chunk maxBytes
        | nil =>
          rw [hqueue] at heq
          dsimp only at heq
          split_ifs at heq
          cases heq
          exact h

lemma Sound.perform (h : Sound s) {c : Call} {answer : Answer}
    (heq : s.perform c = some (s', answer)) : Sound s' := by
  cases c with
  | createPair =>
    cases heq
    exact h.createPair
  | write handle chunk =>
    obtain ⟨⟨s₁, result⟩, hwrite, heq⟩ := Option.map_eq_some_iff.mp heq
    cases heq
    exact h.write hwrite
  | tryWrite handle chunk =>
    cases heq
    exact h.tryWrite handle chunk
  | readBounded handle maxBytes =>
    obtain ⟨⟨s₁, result⟩, hread, heq⟩ := Option.map_eq_some_iff.mp heq
    cases heq
    exact h.readBounded hread
  | close handle =>
    cases heq
    dsimp only
    cases s.handles[handle]? with
    | none => exact h.dropPending handle
    | some held => exact h.closeHeld handle held

variable {calls : List Call} {t : List (Call × Answer)}

lemma trace_cons_iff {c : Call} :
    s.trace (c :: calls) = some (t, s') ↔ ∃ s₁ answer rest, s.perform c = some (s₁, answer) ∧
      s₁.trace calls = some (rest, s') ∧ t = (c, answer) :: rest := by
  simp only [trace, Option.bind_eq_bind, Option.bind_eq_some_iff, Prod.exists, Option.some.injEq,
    Prod.mk.injEq]
  constructor
  · rintro ⟨s₁, answer, hc, rest, s₂, hrest, rfl, rfl⟩
    exact ⟨s₁, answer, rest, hc, hrest, rfl⟩
  · rintro ⟨s₁, answer, rest, hc, hrest, rfl⟩
    exact ⟨s₁, answer, hc, rest, s', hrest, rfl, rfl⟩

lemma Sound.trace (h : Sound s) (heq : s.trace calls = some (t, s')) : Sound s' := by
  induction calls generalizing s t with
  | nil =>
    cases heq
    exact h
  | cons c calls ih =>
    obtain ⟨s₁, answer, rest, hc, hrest, -⟩ := trace_cons_iff.mp heq
    exact ih (h.perform hc) hrest

lemma sound_new : Sound new := ⟨by simp [new], by simp [new], by simp [new]⟩

/-- Any calls in which the reader is not closed are a run of the pipe. -/
lemma Paired.trace (h : Paired s w) (hopen : Call.close (w + 1) ∉ calls)
    (heq : s.trace calls = some (t, s')) :
    Paired s' w ∧ Pipe.Run (s.pipeOf w) (eventsOf w (w + 1) t) (s'.pipeOf w) := by
  induction calls generalizing s t with
  | nil =>
    cases heq
    exact ⟨h, .nil _⟩
  | cons c calls ih =>
    obtain ⟨s₁, answer, rest, hc, hrest, rfl⟩ := trace_cons_iff.mp heq
    have hfirst : c ≠ .close (w + 1) := fun heq => hopen (heq ▸ List.mem_cons_self)
    obtain ⟨hpaired, hstep⟩ := h.perform hfirst hc
    obtain ⟨hlast, hrun⟩ := ih hpaired (fun hmem => hopen (List.mem_cons_of_mem _ hmem)) hrest
    refine ⟨hlast, ?_⟩
    unfold eventsOf
    cases hevent : eventOf w (w + 1) (c, answer) with
    | none =>
      rw [hevent] at hstep
      rw [List.filterMap_cons_none hevent, ← hstep]
      exact hrun
    | some e =>
      rw [hevent] at hstep
      rw [List.filterMap_cons_some hevent]
      exact .cons hstep hrun

/-! ### What is delivered -/

def got? : Pipe.Event UInt8 → Option (Nat × Bytes)
  | .got limit piece => some (limit, piece)
  | _ => none

lemma written_eventsOf (r : Nat) (t : List (Call × Answer)) :
    Pipe.written (eventsOf w r t) = writtenTo w t := by
  rw [Pipe.written, eventsOf, writtenTo, List.filterMap_filterMap]
  refine List.filterMap_congr fun x _ => ?_
  obtain ⟨c, answer⟩ := x
  rcases c with _ | _ | _ | _ | _ <;> rcases answer with _ | (_ | _) | (_ | _) | (_ | _) <;>
    simp only [eventOf, Option.bind_none] <;> split_ifs <;> rfl

lemma got_eventsOf (r : Nat) (t : List (Call × Answer)) :
    (eventsOf w r t).filterMap got? = readsOf r t := by
  rw [eventsOf, readsOf, List.filterMap_filterMap]
  refine List.filterMap_congr fun x _ => ?_
  obtain ⟨c, answer⟩ := x
  rcases c with _ | _ | _ | _ | _ <;> rcases answer with _ | (_ | _) | (_ | _) | (_ | _) <;>
    simp only [eventOf, Option.bind_none] <;> split_ifs <;> rfl

lemma pieces_eq_map_got (es : List (Pipe.Event UInt8)) :
    Pipe.pieces es = (es.filterMap got?).map Prod.snd := by
  rw [Pipe.pieces, List.map_filterMap]
  refine List.filterMap_congr fun e _ => ?_
  cases e <;> rfl

lemma eq_of_got? {e : Pipe.Event UInt8} {limit : Nat} {piece : Bytes}
    (h : got? e = some (limit, piece)) : e = .got limit piece := by
  cases e with
  | wrote chunk => cases h
  | got l p =>
    cases h
    rfl
  | closed => cases h

/-- The readings of a stream, split where a reading is empty. -/
lemma exists_split {r : Nat} {t : List (Call × Answer)} {front back : List (Nat × Bytes)}
    {limit : Nat} (h : readsOf r t = front ++ (limit, []) :: back) :
    ∃ es es', eventsOf w r t = es ++ .got limit [] :: es' ∧
      Pipe.pieces es = front.map Prod.snd := by
  rw [← @got_eventsOf w, List.filterMap_eq_append_iff] at h
  obtain ⟨es₁, es₂, hsplit, hfront, hback⟩ := h
  obtain ⟨quiet, e, es', rfl, hquiet, he, -⟩ := List.filterMap_eq_cons_iff.mp hback
  refine ⟨es₁ ++ quiet, es', by rw [hsplit, eq_of_got? he, List.append_assoc], ?_⟩
  rw [pieces_eq_map_got, List.filterMap_append, hfront, List.filterMap_eq_nil_iff.mpr hquiet,
    List.append_nil]

lemma Paired.within (h : Paired s w) (hempty : s.pipeOf w = Pipe.empty)
    (hopen : Call.close (w + 1) ∉ calls) (heq : s.trace calls = some (t, s')) :
    ∀ x ∈ readsOf (w + 1) t, x.2.length ≤ x.1 := by
  obtain ⟨-, hrun⟩ := h.trace hopen heq
  rw [hempty] at hrun
  obtain ⟨taken, hprogress⟩ := hrun.progress
  intro x hx
  rw [← @got_eventsOf w, List.mem_filterMap] at hx
  obtain ⟨e, he, hgot⟩ := hx
  rw [eq_of_got? hgot] at he
  exact hprogress.within x.1 x.2 he

lemma Paired.deliversExactly_iff (h : Paired s w) (hempty : s.pipeOf w = Pipe.empty)
    (hopen : Call.close (w + 1) ∉ calls) (heq : s.trace calls = some (t, s'))
    (hend : [] ∈ (readsOf (w + 1) t).map Prod.snd) :
    DeliversExactly w (w + 1) t ↔ Pipe.EmptyLast (writtenTo w t) := by
  obtain ⟨-, hrun⟩ := h.trace hopen heq
  rw [hempty] at hrun
  have hfirst : ∀ front back limit, readsOf (w + 1) t = front ++ (limit, []) :: back →
      [] ∉ front.map Prod.snd →
      ((front.map Prod.snd).flatten = (writtenTo w t).flatten ↔
        Pipe.EmptyLast (writtenTo w t)) := by
    intro front back limit hsplit hnone
    obtain ⟨es, es', hevents, hpieces⟩ := @exists_split w _ _ _ _ _ hsplit
    rw [hevents] at hrun
    rw [← hpieces] at hnone ⊢
    rw [← written_eventsOf (w + 1), hevents]
    exact hrun.first_empty_iff hnone
  constructor
  · rintro ⟨-, hexact⟩
    -- the first of the empty readings
    obtain ⟨pieces, rest, hpieces, hnone⟩ := List.eq_append_cons_of_mem hend
    obtain ⟨front, others, hsplit, rfl, hrest⟩ := List.map_eq_append_iff.mp hpieces
    obtain ⟨⟨limit, piece⟩, back, rfl, hnil, -⟩ := List.map_eq_cons_iff.mp hrest
    obtain rfl : piece = [] := hnil
    exact (hfirst front back limit hsplit hnone).mp (hexact front back limit hsplit hnone)
  · intro hlast
    refine ⟨h.within hempty hopen heq, fun front back limit hsplit hnone => ?_⟩
    exact (hfirst front back limit hsplit hnone).mpr hlast

/-- Once the writer is closed no reading waits, and after enough of them one is empty. -/
lemma Paired.reads_end (h : Paired s w) (hproper : (s.pipeOf w).Proper)
    (hclosed : (s.pipeOf w).closed = true) (limits : List Nat) (hpos : ∀ l ∈ limits, 0 < l) :
    ∃ t s', s.trace (limits.map (.readBounded (w + 1))) = some (t, s') ∧
      (readsOf (w + 1) t).map Prod.fst = limits ∧
      ((s.pipeOf w).toRead < limits.length → [] ∈ (readsOf (w + 1) t).map Prod.snd) := by
  induction limits generalizing s with
  | nil => exact ⟨[], s, rfl, rfl, fun hlt => absurd hlt (Nat.not_lt_zero _)⟩
  | cons limit limits ih =>
    have hlimit := hpos limit List.mem_cons_self
    obtain ⟨p, piece, hread, hproper', hclosed', hless⟩ :=
      Pipe.read_of_closed hproper hclosed hlimit
    have hreader := h.readBounded_reader hlimit
    rw [hread] at hreader
    obtain ⟨s₁, hperform, hpaired, rfl⟩ := hreader
    obtain ⟨t, s', htrace, hlimits, hend⟩ :=
      ih hpaired hproper' hclosed' fun l hl => hpos l (List.mem_cons_of_mem _ hl)
    refine ⟨(.readBounded (w + 1) limit, .read (.ok piece)) :: t, s', ?_, ?_, ?_⟩
    · refine trace_cons_iff.mpr ⟨s₁, _, t, ?_, htrace, rfl⟩
      rw [HttpStreamRegistry.perform, hperform]
      rfl
    · simpa [readsOf] using hlimits
    · intro hlt
      have hcons : (readsOf (w + 1) ((.readBounded (w + 1) limit, .read (.ok piece)) :: t)).map
          Prod.snd = piece :: (readsOf (w + 1) t).map Prod.snd := by
        simp [readsOf]
      rw [hcons]
      by_cases hnil : piece = []
      · rw [hnil]
        exact List.mem_cons_self
      · have := hless hnil
        rw [List.length_cons] at hlt
        exact List.mem_cons_of_mem _ (hend (by omega))

end Simulation

/-- A stream of a registry in any use, from its creation on, while its reader is not closed: when an
empty reading has been made, what was delivered is exact just when nothing was written behind an
empty chunk; and once the writer is closed, readings do not wait and come to an empty one. -/
theorem deliversExactly_iff_emptyLast {before calls : List Call} {t₀ t : List (Call × Answer)}
    {s s₁ s' : HttpStreamRegistry} {w r : Nat} (hbefore : new.trace before = some (t₀, s))
    (hpair : s.createPair = (s₁, w, r)) (hrun : s₁.trace calls = some (t, s'))
    (hreader : Call.close r ∉ calls) :
    ([] ∈ (readsOf r t).map Prod.snd →
      (DeliversExactly w r t ↔ Pipe.EmptyLast (writtenTo w t))) ∧
    ((Call.close w, Answer.closed (.ok ())) ∈ t → ∀ limits : List Nat, (∀ l ∈ limits, 0 < l) →
      ∃ t' s'', s'.trace (limits.map (.readBounded r)) = some (t', s'') ∧
        (readsOf r t').map Prod.fst = limits ∧
        ((writtenTo w t).flatten.length + (writtenTo w t).length < limits.length →
          [] ∈ (readsOf r t').map Prod.snd)) := by
  obtain ⟨rfl, rfl, rfl⟩ : s.createPair.1 = s₁ ∧ s.nextId = w ∧ s.nextId + 1 = r := by
    rw [hpair]
    cases hpair
    exact ⟨rfl, rfl, rfl⟩
  obtain ⟨hpaired, hempty⟩ := (sound_new.trace hbefore).paired_createPair
  obtain ⟨hpaired', hpipe⟩ := hpaired.trace hreader hrun
  rw [hempty] at hpipe
  obtain ⟨taken, hprogress⟩ := hpipe.progress
  refine ⟨hpaired.deliversExactly_iff hempty hreader hrun, fun hclose limits hpos => ?_⟩
  have hclosed : (s'.pipeOf s.nextId).closed = true := by
    apply hpipe.closed_of_mem
    exact List.mem_filterMap.mpr ⟨_, hclose, by simp [eventOf]⟩
  obtain ⟨t', s'', htrace, hlimits, hend⟩ :=
    hpaired'.reads_end hprogress.proper hclosed limits hpos
  refine ⟨t', s'', htrace, hlimits, fun hlt => hend (lt_of_le_of_lt ?_ hlt)⟩
  have := hprogress.toRead_le
  rwa [written_eventsOf] at this

/-- Calls on the first pair of a new registry. -/
def firstStream (calls : List Call) : Option (List (Call × Answer) × HttpStreamRegistry) :=
  new.createPair.1.trace calls

/-- Two chunks that are read in pieces of two bytes, to the end. -/
theorem two_chunks_are_delivered : ∃ t s',
    firstStream [.write 1 [1, 2, 3], .readBounded 2 2, .tryWrite 1 [4], .close 1,
      .readBounded 2 2, .readBounded 2 2, .readBounded 2 2] = some (t, s') ∧
    readsOf 2 t = [(2, [1, 2]), (2, [3]), (2, [4]), (2, [])] ∧ DeliversExactly 1 2 t := by
  obtain ⟨⟨t, s'⟩, hrun⟩ := Option.isSome_iff_exists.mp (by decide +kernel :
    (firstStream [.write 1 [1, 2, 3], .readBounded 2 2, .tryWrite 1 [4], .close 1,
      .readBounded 2 2, .readBounded 2 2, .readBounded 2 2]).isSome = true)
  have hwritten : (firstStream [.write 1 [1, 2, 3], .readBounded 2 2, .tryWrite 1 [4], .close 1,
      .readBounded 2 2, .readBounded 2 2, .readBounded 2 2]).map (fun x => writtenTo 1 x.1) =
      some [[1, 2, 3], [4]] := by decide +kernel
  have hreads : (firstStream [.write 1 [1, 2, 3], .readBounded 2 2, .tryWrite 1 [4], .close 1,
      .readBounded 2 2, .readBounded 2 2, .readBounded 2 2]).map (fun x => readsOf 2 x.1) =
      some [(2, [1, 2]), (2, [3]), (2, [4]), (2, [])] := by decide +kernel
  rw [hrun] at hwritten hreads
  have hwritten : writtenTo 1 t = [[1, 2, 3], [4]] := Option.some.inj hwritten
  have hreads : readsOf 2 t = [(2, [1, 2]), (2, [3]), (2, [4]), (2, [])] := Option.some.inj hreads
  have hiff := (@deliversExactly_iff_emptyLast [] _ _ _ _ _ _ _ _ rfl rfl hrun (by decide)).1
  refine ⟨t, s', hrun, hreads, (hiff ?_).mpr ?_⟩
  · show [] ∈ (readsOf 2 t).map Prod.snd
    rw [hreads]
    decide
  · show Pipe.EmptyLast (writtenTo 1 t)
    rw [hwritten]
    decide

/-- An empty chunk, a chunk of one byte, a close: the first reading is empty and the byte has not
been delivered. -/
theorem empty_chunk_ends_the_stream : ∃ t s',
    firstStream [.write 1 [], .write 1 [1], .close 1, .readBounded 2 16] = some (t, s') ∧
    [] ∈ (readsOf 2 t).map Prod.snd ∧ ¬DeliversExactly 1 2 t := by
  obtain ⟨⟨t, s'⟩, hrun⟩ := Option.isSome_iff_exists.mp (by decide +kernel :
    (firstStream [.write 1 [], .write 1 [1], .close 1, .readBounded 2 16]).isSome = true)
  have hwritten : (firstStream [.write 1 [], .write 1 [1], .close 1, .readBounded 2 16]).map
      (fun x => writtenTo 1 x.1) = some [[], [1]] := by decide +kernel
  have hreads : (firstStream [.write 1 [], .write 1 [1], .close 1, .readBounded 2 16]).map
      (fun x => readsOf 2 x.1) = some [(16, [])] := by decide +kernel
  rw [hrun] at hwritten hreads
  have hwritten : writtenTo 1 t = [[], [1]] := Option.some.inj hwritten
  have hreads : readsOf 2 t = [(16, [])] := Option.some.inj hreads
  refine ⟨t, s', hrun, by simp [hreads], fun hexact => ?_⟩
  have := hexact.2 [] [] 16 hreads (by simp)
  rw [hwritten] at this
  cases this

end HttpStreamRegistry

end Temper.Wasm
