import Mathlib
import Temper.Dispatch.Composite
import Temper.EntityActor.ProcessedKeys
import Temper.EntityActor.Tombstone
import Temper.Lib.Checks

/-!
# Composite actions and their sub-writes in order

The sub-writes of a composite action, executed one after the other: each on the state that the
earlier ones left, its guards and references judged on those states too. The batch that a composite
action stages is that of this execution when its preflight passes and its lookups, which go to the
committed states, read what they would read on the way.
-/

namespace Temper.Dispatch.Composite

open Jit EntityActor Spec
open Json (Value)

section

variable [Host]

/-! ### Execution in order -/

/-- The entities while the sub-writes are executed, and the journals written so far. -/
structure World where
  streams : Streams
  written : List String := []

/-- The last event of the stream is not a deletion. -/
def AtomicCompositeStream.isLive (stream : AtomicCompositeStream) : Bool :=
  match stream.events.getLast? with
  | some (.entity event) => event.action ≠ "Deleted"
  | _ => true

/-- What is read once the sub-writes so far are done. -/
def World.reads (w : World) (server : Server) (reads : Reads) : Reads where
  entity persistenceId :=
    if persistenceId ∈ w.written then (w.streams[persistenceId]?).map (·.state)
    else reads.entity persistenceId
  fields entityType entityId :=
    let persistenceId := server.persistenceId entityType entityId
    if persistenceId ∈ w.written then (w.streams[persistenceId]?).map (·.state.fields)
    else reads.fields entityType entityId
  status entityType entityId :=
    let persistenceId := server.persistenceId entityType entityId
    if persistenceId ∈ w.written then (w.streams[persistenceId]?).map (·.state.status)
    else reads.status entityType entityId
  durable entityType entityId :=
    let persistenceId := server.persistenceId entityType entityId
    if persistenceId ∈ w.written then (w.streams[persistenceId]?).any (·.isLive)
    else reads.durable entityType entityId

/-- One sub-write on what the earlier ones left. -/
def executeNext (server : Server) (reads : Reads) (parent : AtomicCompositeParent)
    (created : List (String × String)) (w : World) (write : PreparedCompositeSubWrite) :
    Except DispatchError World := do
  let persistenceId := server.persistenceId write.entityType write.entityId
  let streams ← ensureAtomicCompositeStream server reads w.streams write.entityType write.entityId
    none (write.usesParentGate && write.action = "Create")
  let table ← server.tableFor write.entityType
  let booleans := crossEntityBooleans server (w.reads server reads) created table write
  match streams[persistenceId]? with
  | none => .error (.panicked "stream inserted before processing sub-write")
  | some stream =>
    if shouldSkipExistingPackObjectCreate write stream.targetExisted stream.state then
      pure ⟨streams, w.written⟩
    else do
      validateRefSubWriteCompareAndSet parent write stream.targetExisted stream.state
      let result ← processSubWrite server table stream.state write booleans
      putOverflowBlobs server result.overflowBlobs
      let state ← fileEvent write result
      pure ⟨streams.insert persistenceId { stream with
          state := state
          events := stream.events ++ [.entity (subWriteEvent write result)] },
        w.written ++ [persistenceId]⟩

def executeAll (server : Server) (reads : Reads) (parent : AtomicCompositeParent)
    (created : List (String × String)) : World → List PreparedCompositeSubWrite →
    Except DispatchError World
  | w, [] => .ok w
  | w, write :: writes => do
    executeAll server reads parent created (← executeNext server reads parent created w write)
      writes

/-- The entities that the list creates: those that are not there before it. -/
def newTargets (server : Server) (reads : Reads) (writes : List PreparedCompositeSubWrite) :
    List (String × String) :=
  (writes.filter fun write => write.action = "Create" &&
    (server.transitionTable write.entityType).any fun table =>
      !(loadTarget server reads write.entityType write.entityId table).targetExisted).map
    fun write => (write.entityType, write.entityId)

/-- The batch of the sub-writes executed in order. -/
def executeInOrder (server : Server) (reads : Reads) (journal : Except String (List JournalEvent))
    (parent : AtomicCompositeParent) (writes : List PreparedCompositeSubWrite) :
    Except DispatchError (List StagedAppend) := do
  if writes.isEmpty then return []
  let streams ← stageParent server reads journal parent writes
  let w ← executeAll server reads parent (newTargets server reads writes) ⟨streams, []⟩ writes
  batchOf server w.streams

/-! ### Lists whose lookups see what they should -/

/-- The committed states answer the lookups of each sub-write as the states that the earlier ones
leave do. -/
def ReadsAlike (server : Server) (reads : Reads) (parent : AtomicCompositeParent)
    (created : List (String × String)) : World → List PreparedCompositeSubWrite → Prop
  | _, [] => True
  | w, write :: writes =>
    (∀ table, server.transitionTable write.entityType = some table →
      crossEntityBooleans server reads created table write =
        crossEntityBooleans server (w.reads server reads) created table write) ∧
    ∀ w', executeNext server reads parent created w write = .ok w' →
      ReadsAlike server reads parent created w' writes

/-- The sub-writes have the keys of one composite action: one each. -/
structure Keyed (writes : List PreparedCompositeSubWrite) : Prop where
  nodup : (writes.map (·.idempotencyKey)).Nodup
  plain : ∀ write ∈ writes, isTimeoutKey write.idempotencyKey = false

/-- No committed target has processed its sub-write. -/
def Unprocessed (server : Server) (reads : Reads) (writes : List PreparedCompositeSubWrite) :
    Prop :=
  ∀ write ∈ writes, ∀ state,
    reads.entity (server.persistenceId write.entityType write.entityId) = some state →
    state.processedIdempotencyKeys.contains write.idempotencyKey = false

/-- No transition of the sub-writes asks for more than a new state. -/
def AllQuiet (server : Server) (writes : List PreparedCompositeSubWrite) : Prop :=
  ∀ write ∈ writes, ∀ table, server.transitionTable write.entityType = some table →
    ∀ state booleans result, processSubWrite server table state write booleans = .ok result →
      isQuiet result = true

/-! ### The keys of a staged state -/

variable {keys : BTreeMap Nat} {k : String} {sequence : Nat}

omit [Host] in
lemma contains_recordKey {key : String} (hk : (recordKey keys key sequence).contains k = true) :
    keys.contains k = true ∨ key = k := by
  obtain ⟨n, hn⟩ := Option.isSome_iff_exists.mp
    (Std.ExtTreeMap.mem_iff_isSome_getElem?.mp (Std.ExtTreeMap.mem_iff_contains.mpr hk))
  have hinsert := getElem?_of_evict hn
  rw [Std.ExtTreeMap.getElem?_insert] at hinsert
  split_ifs at hinsert with heq
  · exact .inr (compare_eq_iff_eq.mp heq)
  · refine .inl (Std.ExtTreeMap.mem_iff_contains.mp ?_)
    exact Std.ExtTreeMap.mem_iff_isSome_getElem?.mpr (by rw [hinsert]; rfl)

omit [Host] in
lemma contains_filed {key : Option String} (h : (match key with
      | some key => recordKey keys key sequence
      | none => keys).contains k = true) : keys.contains k = true ∨ key = some k := by
  cases key with
  | none => exact .inl h
  | some key => exact (contains_recordKey h).imp_right (congrArg some)

omit [Host] in
/-- Filing an event adds its own key and perhaps a timeout counter. -/
lemma contains_recordEventKeys {keys' : BTreeMap Nat} {event : EntityEvent}
    (h : recordEventKeys keys sequence event = .ok keys') (hplain : isTimeoutKey k = false)
    (hk : keys'.contains k = true) : keys.contains k = true ∨ event.idempotencyKey = some k := by
  unfold recordEventKeys at h
  cases htimeout : event.timeoutState with
  | none =>
    simp only [htimeout, Except.ok.injEq] at h
    subst h
    exact contains_filed hk
  | some timeoutState =>
    simp only [htimeout, recordTimeout] at h
    split_ifs at h
    obtain rfl := Except.ok.inj h
    rw [Std.ExtTreeMap.contains_insert, Bool.or_eq_true] at hk
    obtain heq | hk := hk
    · have hcounter := Remembers.isTimeoutKey_counter timeoutState
      rw [compare_eq_iff_eq.mp (beq_iff_eq.mp heq), hplain] at hcounter
      exact absurd hcounter (by simp)
    · exact contains_filed hk

lemma contains_of_pushed {s s' : EntityState} {event : EntityEvent} (h : pushed s event = .ok s')
    (hplain : isTimeoutKey k = false) (hk : s'.processedIdempotencyKeys.contains k = true) :
    s.processedIdempotencyKeys.contains k = true ∨ event.idempotencyKey = some k := by
  unfold pushed at h
  cases hpush : s.pushEventBounded event with
  | error panic => simp [hpush] at h
  | ok s'' =>
    simp only [hpush, Except.ok.injEq] at h
    subst h
    obtain ⟨keys, hkeys, hs⟩ := Checks.bind_ok_iff.mp hpush
    cases hs
    exact contains_recordEventKeys hkeys hplain hk

/-! ### Streams that have not processed the sub-writes -/

/-- The journal of the target of a sub-write. -/
def Server.journalOf (server : Server) (write : PreparedCompositeSubWrite) : String :=
  server.persistenceId write.entityType write.entityId

/-- The staged target of a sub-write, if there is one, has not processed it. -/
def Spares (server : Server) (streams : Streams) (write : PreparedCompositeSubWrite) : Prop :=
  ∀ stream, streams[server.journalOf write]? = some stream →
    stream.state.processedIdempotencyKeys.contains write.idempotencyKey = false

section Keys

variable {server : Server} {reads : Reads} {streams streams' : Streams}
  {write : PreparedCompositeSubWrite} {entityType entityId : String}

variable {table : TransitionTable}

omit [Host] in
lemma tableFor_ok_iff :
    server.tableFor entityType = .ok table ↔ server.transitionTable entityType = some table := by
  unfold Server.tableFor
  cases server.transitionTable entityType <;> simp

lemma contains_of_openStream {target : PreflightCompositeTarget} {suppress : Bool}
    {stream : AtomicCompositeStream}
    (h : openStream server entityType entityId target suppress = .ok stream)
    (hplain : isTimeoutKey k = false)
    (hk : stream.state.processedIdempotencyKeys.contains k = true) :
    target.state.processedIdempotencyKeys.contains k = true := by
  unfold openStream at h
  dsimp only at h
  split_ifs at h with hnew
  · cases hcontract : server.creationContract entityType entityId (.object []) with
    | error e => simp [hcontract] at h
    | ok contract =>
      simp only [hcontract] at h
      obtain ⟨state, hstate, hstream⟩ := Checks.bind_ok_iff.mp h
      cases hstream
      refine (contains_of_pushed hstate hplain hk).resolve_right ?_
      simp [bootstrapEvent]
  · cases h
    exact hk

omit [Host] in
/-- The committed target of an unprocessed sub-write has not processed it. -/
lemma loadTarget_spares
    (hjournal : server.persistenceId entityType entityId = server.journalOf write)
    (h : ∀ state, reads.entity (server.journalOf write) = some state →
      state.processedIdempotencyKeys.contains write.idempotencyKey = false) :
    (loadTarget server reads entityType entityId table).state.processedIdempotencyKeys.contains
      write.idempotencyKey = false := by
  unfold loadTarget
  rw [hjournal]
  cases hentity : reads.entity (server.journalOf write) with
  | none => simp [syntheticInitialState]
  | some state => exact h state hentity

/-- The stream of another entity or of the same: an unprocessed sub-write stays so. -/
lemma Spares.ensure (hspares : Spares server streams write)
    (hplain : isTimeoutKey write.idempotencyKey = false)
    (hfresh : ∀ state, reads.entity (server.journalOf write) = some state →
      state.processedIdempotencyKeys.contains write.idempotencyKey = false) {suppress : Bool}
    (h : ensureAtomicCompositeStream server reads streams entityType entityId none suppress =
      .ok streams') : Spares server streams' write := by
  unfold ensureAtomicCompositeStream at h
  dsimp only at h
  split_ifs at h with hthere
  · cases h
    exact hspares
  · obtain ⟨table, -, h⟩ := Checks.bind_ok_iff.mp h
    obtain ⟨target, htarget, h⟩ := Checks.bind_ok_iff.mp h
    cases htarget
    obtain ⟨stream, hopen, hinsert⟩ := Checks.bind_ok_iff.mp h
    cases hinsert
    intro found hfound
    rw [Std.ExtTreeMap.getElem?_insert] at hfound
    split_ifs at hfound with hjournal
    · cases hfound
      rw [Bool.eq_false_iff]
      intro hk
      have hloaded := contains_of_openStream hopen hplain hk
      rw [loadTarget_spares (compare_eq_iff_eq.mp hjournal) hfresh] at hloaded
      exact absurd hloaded (by simp)
    · exact hspares found hfound

lemma processSubWrite_frame {state : EntityState} {booleans : BTreeMap Bool}
    {result : ProcessResult} (h : processSubWrite server table state write booleans = .ok result) :
    SameFrame result.state state := by
  unfold processSubWrite at h
  split at h
  next hprocess =>
    cases h
    obtain ⟨rule, haccepted⟩ := processAction_accepted hprocess
    exact haccepted.frame
  next => cases h
  next => cases h

/-- What a sub-write that is executed leaves of the others. -/
lemma Spares.executeNext {parent : AtomicCompositeParent} {created : List (String × String)}
    {w w' : World} {next : PreparedCompositeSubWrite} (hspares : Spares server w.streams write)
    (hplain : isTimeoutKey write.idempotencyKey = false)
    (hfresh : ∀ state, reads.entity (server.journalOf write) = some state →
      state.processedIdempotencyKeys.contains write.idempotencyKey = false)
    (hother : next.idempotencyKey ≠ write.idempotencyKey)
    (h : executeNext server reads parent created w next = .ok w') :
    Spares server w'.streams write := by
  unfold Composite.executeNext at h
  obtain ⟨streams, hensure, h⟩ := Checks.bind_ok_iff.mp h
  obtain ⟨table, -, h⟩ := Checks.bind_ok_iff.mp h
  have hopen := hspares.ensure hplain hfresh hensure
  dsimp only at h
  split at h
  next => cases h
  next stream hstream =>
    split_ifs at h with hskip
    · cases h
      exact hopen
    · obtain ⟨-, -, h⟩ := Checks.bind_ok_iff.mp h
      obtain ⟨result, hresult, h⟩ := Checks.bind_ok_iff.mp h
      obtain ⟨-, -, h⟩ := Checks.bind_ok_iff.mp h
      obtain ⟨state, hstate, h⟩ := Checks.bind_ok_iff.mp h
      cases h
      intro found hfound
      dsimp only at hfound
      rw [Std.ExtTreeMap.getElem?_insert] at hfound
      split_ifs at hfound with hjournal
      · cases hfound
        rw [Bool.eq_false_iff]
        intro hk
        obtain hk | hkey := contains_of_pushed hstate hplain hk
        · have hsame := (processSubWrite_frame hresult).keys
          dsimp only at hk
          rw [hsame, hopen stream (compare_eq_iff_eq.mp hjournal ▸ hstream)] at hk
          exact absurd hk (by simp)
        · exact hother (Option.some.inj hkey)
      · exact hopen found hfound

end Keys

/-! ### One sub-write -/

section Step

variable {server : Server} {reads : Reads} {parent : AtomicCompositeParent}
  {write : PreparedCompositeSubWrite} {table : TransitionTable}

omit [Host] in
/-- The target that the preflight leaves is the committed one. -/
lemma target_of_preflight {target : PreflightCompositeTarget}
    (h : preflightCompositeSubWriteTransition server reads parent write = .ok target) :
    ∃ table, server.transitionTable write.entityType = some table ∧
      target = loadTarget server reads write.entityType write.entityId table := by
  unfold preflightCompositeSubWriteTransition at h
  obtain ⟨table, htable, h⟩ := Checks.bind_ok_iff.mp h
  refine ⟨table, tableFor_ok_iff.mp htable, ?_⟩
  dsimp only at h
  split_ifs at h with hprocessed hbudget
  · cases h
    rfl
  · obtain ⟨-, -, h⟩ := Checks.bind_ok_iff.mp h
    cases h
  · obtain ⟨-, -, h⟩ := Checks.bind_ok_iff.mp h
    split at h
    · split_ifs at h
      cases h
      rfl
    · cases h

lemma ensure_of_preflight (htable : server.transitionTable write.entityType = some table)
    (streams : Streams) (suppress : Bool) :
    ensureAtomicCompositeStream server reads streams write.entityType write.entityId
        (some (loadTarget server reads write.entityType write.entityId table)) suppress =
      ensureAtomicCompositeStream server reads streams write.entityType write.entityId none
        suppress := by
  unfold ensureAtomicCompositeStream
  dsimp only
  split_ifs
  · rfl
  · rw [tableFor_ok_iff.mpr htable]
    rfl

/-- A sub-write that is staged after its preflight, without the target it was given. -/
lemma stageSubWrite_eq (parent : AtomicCompositeParent) {created : List (String × String)}
    {w : World} (htable : server.transitionTable write.entityType = some table)
    (hspares : Spares server w.streams write)
    (hplain : isTimeoutKey write.idempotencyKey = false)
    (hfresh : ∀ state, reads.entity (server.journalOf write) = some state →
      state.processedIdempotencyKeys.contains write.idempotencyKey = false)
    (hquiet : ∀ state booleans result,
      processSubWrite server table state write booleans = .ok result → isQuiet result = true)
    (halike : crossEntityBooleans server reads created table write =
      crossEntityBooleans server (w.reads server reads) created table write) :
    stageSubWrite server reads parent created w.streams { write with
        preflightTarget := some (loadTarget server reads write.entityType write.entityId table) } =
      (executeNext server reads parent created w write).map fun w' => some w'.streams := by
  unfold stageSubWrite executeNext
  dsimp only
  rw [ensure_of_preflight htable]
  cases hensure : ensureAtomicCompositeStream server reads w.streams write.entityType
      write.entityId none (write.usesParentGate && write.action = "Create") with
  | error e => rfl
  | ok streams =>
    have hfree := hspares.ensure hplain hfresh hensure
    simp only [bind, Except.bind, tableFor_ok_iff.mpr htable]
    cases hstream : streams[server.persistenceId write.entityType write.entityId]? with
    | none => rfl
    | some stream =>
      have hunprocessed := hfree stream hstream
      dsimp only
      change (if shouldSkipExistingPackObjectCreate write stream.targetExisted stream.state then _
        else if !isIncompleteExistingPackObjectCreate write stream.targetExisted stream.state &&
            stream.state.processedIdempotencyKeys.contains write.idempotencyKey then _
          else _) = _
      rw [hunprocessed, Bool.and_false, if_neg (Bool.false_ne_true), ← halike]
      by_cases hskip : shouldSkipExistingPackObjectCreate write stream.targetExisted stream.state
      · rw [if_pos hskip, if_pos hskip]
        rfl
      · rw [if_neg hskip, if_neg hskip]
        -- nothing after the preflight looks at the target it left
        generalize hvalid : validateRefSubWriteCompareAndSet parent write stream.targetExisted
          stream.state = valid
        rw [show validateRefSubWriteCompareAndSet parent { write with
            preflightTarget := some
              (loadTarget server reads write.entityType write.entityId table) }
          stream.targetExisted stream.state = valid from hvalid]
        cases valid with
        | error e => rfl
        | ok u =>
          generalize hresult : processSubWrite server table stream.state write
            (crossEntityBooleans server reads created table write) = outcome
          rw [show processSubWrite server table stream.state { write with
              preflightTarget := some
                (loadTarget server reads write.entityType write.entityId table) }
            (crossEntityBooleans server reads created table { write with
              preflightTarget := some
                (loadTarget server reads write.entityType write.entityId table) }) = outcome
            from hresult]
          cases outcome with
          | error e => rfl
          | ok result =>
            dsimp only
            rw [hquiet _ _ _ hresult]
            cases putOverflowBlobs server result.overflowBlobs with
            | error e => rfl
            | ok u =>
              generalize hstate : fileEvent write result = filed
              rw [show fileEvent { write with
                  preflightTarget := some
                    (loadTarget server reads write.entityType write.entityId table) } result = filed
                from hstate]
              cases filed with
              | error e => rfl
              | ok state => rfl

end Step

/-! ### The whole list -/

section Run

variable {server : Server} {reads : Reads} {parent : AtomicCompositeParent}
  {journal : Except String (List JournalEvent)} {writes prepared : List PreparedCompositeSubWrite}

variable {write : PreparedCompositeSubWrite}

omit [Host] in
/-- The preflight of a list that passes it. -/
lemma preflightAll_cons_ok (h : preflightAll server reads parent (write :: writes) = .ok prepared) :
    ∃ table rest, server.transitionTable write.entityType = some table ∧
      preflightAll server reads parent writes = .ok rest ∧
      prepared = { write with
        preflightTarget := some (loadTarget server reads write.entityType write.entityId table) } ::
          rest := by
  obtain ⟨target, htarget, h⟩ := Checks.bind_ok_iff.mp h
  obtain ⟨rest, hrest, h⟩ := Checks.bind_ok_iff.mp h
  obtain ⟨table, htable, rfl⟩ := target_of_preflight htarget
  cases h
  exact ⟨table, rest, htable, hrest, rfl⟩

omit [Host] in
lemma createdTargets_of_preflight (h : preflightAll server reads parent writes = .ok prepared) :
    createdTargets prepared = newTargets server reads writes := by
  induction writes generalizing prepared with
  | nil =>
    cases h
    rfl
  | cons write writes ih =>
    obtain ⟨table, rest, htable, hrest, rfl⟩ := preflightAll_cons_ok h
    have htail := ih hrest
    unfold createdTargets newTargets at htail ⊢
    simp only [List.filter_cons, Option.any_some, htable]
    split_ifs
    · rw [List.map_cons, List.map_cons, htail]
    · exact htail

omit [Host] in
lemma buildCompositeEvent_of_preflight
    (h : preflightAll server reads parent writes = .ok prepared) :
    buildCompositeEvent parent prepared = buildCompositeEvent parent writes := by
  have hmap : (prepared.map fun write => (⟨write.idx, write.entityType, write.entityId,
        write.action, write.idempotencyKey⟩ : CompositeEventSubWrite)) =
      writes.map fun write => ⟨write.idx, write.entityType, write.entityId, write.action,
        write.idempotencyKey⟩ := by
    induction writes generalizing prepared with
    | nil =>
      cases h
      rfl
    | cons write writes ih =>
      obtain ⟨table, rest, -, hrest, rfl⟩ := preflightAll_cons_ok h
      rw [List.map_cons, List.map_cons, ih hrest]
  unfold buildCompositeEvent
  rw [hmap]

omit [Host] in
lemma isEmpty_of_preflight (h : preflightAll server reads parent writes = .ok prepared) :
    prepared.isEmpty = writes.isEmpty := by
  cases writes with
  | nil =>
    cases h
    rfl
  | cons write writes =>
    obtain ⟨table, rest, -, -, rfl⟩ := preflightAll_cons_ok h
    rfl

lemma stageParent_of_preflight (h : preflightAll server reads parent writes = .ok prepared) :
    stageParent server reads journal parent prepared =
      stageParent server reads journal parent writes := by
  unfold stageParent
  rw [buildCompositeEvent_of_preflight h]

/-- The stream of the parent has processed no sub-write either. -/
lemma spares_of_stageParent {streams : Streams} {all : List PreparedCompositeSubWrite}
    (h : stageParent server reads journal parent all = .ok streams)
    (hplain : isTimeoutKey write.idempotencyKey = false)
    (hfresh : ∀ state, reads.entity (server.journalOf write) = some state →
      state.processedIdempotencyKeys.contains write.idempotencyKey = false) :
    Spares server streams write := by
  have hempty : Spares server ∅ write := by
    intro stream hstream
    simp at hstream
  unfold stageParent at h
  split_ifs at h with hrecord
  · cases h
    exact hempty
  · obtain ⟨persisted, -, h⟩ := Checks.bind_ok_iff.mp h
    cases persisted with
    | true =>
      cases h
      exact hempty
    | false =>
      obtain ⟨opened, hopened, h⟩ := Checks.bind_ok_iff.mp h
      have hspares := hempty.ensure hplain hfresh hopened
      dsimp only at h
      split at h
      next => cases h
      next stream hstream =>
        cases h
        intro found hfound
        rw [Std.ExtTreeMap.getElem?_insert] at hfound
        split_ifs at hfound with hjournal
        · cases hfound
          exact hspares stream (compare_eq_iff_eq.mp hjournal ▸ hstream)
        · exact hspares found hfound

/-- Staging a list after its preflight is executing it. -/
lemma stageSubWrites_eq {created : List (String × String)} {w : World}
    (hpreflight : preflightAll server reads parent writes = .ok prepared)
    (hkeyed : Keyed writes) (hunprocessed : Unprocessed server reads writes)
    (hquiet : AllQuiet server writes) (halike : ReadsAlike server reads parent created w writes)
    (hspares : ∀ write ∈ writes, Spares server w.streams write) :
    stageSubWrites server reads parent created w.streams prepared =
      (executeAll server reads parent created w writes).map fun w' => some w'.streams := by
  induction writes generalizing prepared w with
  | nil =>
    cases hpreflight
    rfl
  | cons write writes ih =>
    obtain ⟨table, rest, htable, hrest, rfl⟩ := preflightAll_cons_ok hpreflight
    have hself : write ∈ write :: writes := List.mem_cons_self ..
    have hstep := stageSubWrite_eq parent htable (hspares write hself)
      (hkeyed.plain write hself) (hunprocessed write hself) (hquiet write hself table htable)
      (halike.1 table htable)
    unfold stageSubWrites executeAll
    rw [hstep]
    cases hnext : executeNext server reads parent created w write with
    | error e => rfl
    | ok w' =>
      have hlater : ∀ other ∈ writes, other ∈ write :: writes :=
        fun other => List.mem_cons_of_mem _
      obtain ⟨hnew, hnodup⟩ := List.nodup_cons.mp hkeyed.nodup
      refine ih hrest ⟨hnodup, fun other hother => hkeyed.plain other (hlater other hother)⟩
        (fun other hother => hunprocessed other (hlater other hother))
        (fun other hother => hquiet other (hlater other hother)) (halike.2 w' hnext)
        fun other hother => ?_
      have hother' := hlater other hother
      refine (hspares other hother').executeNext (hkeyed.plain other hother')
        (hunprocessed other hother') (fun heq => hnew ?_) hnext
      exact List.mem_map.mpr ⟨other, hother, heq.symm⟩

end Run

/-! ### Transitions that ask for nothing -/

/-- The effect changes the state and nothing else. -/
def staysInside : Jit.Effect → Bool
  | .custom _ | .scheduleAction _ _ | .scheduleAtAction _ _ | .spawnEntity _ _ _ _ _ => false
  | _ => true

omit [Host] in
/-- Effects that stay inside ask for nothing. -/
lemma requests_of_staysInside {effects : List Jit.Effect}
    (h : ∀ effect ∈ effects, staysInside effect = true) (ids : Nat → String) (params : Value)
    (acc : Applied) :
    (effects.foldl (applyEffect ids params) acc).customEffects = acc.customEffects ∧
      (effects.foldl (applyEffect ids params) acc).scheduledActions = acc.scheduledActions ∧
      (effects.foldl (applyEffect ids params) acc).spawnRequests = acc.spawnRequests ∧
      (effects.foldl (applyEffect ids params) acc).scheduleAtRequests = acc.scheduleAtRequests := by
  induction effects generalizing acc with
  | nil => exact ⟨rfl, rfl, rfl, rfl⟩
  | cons effect effects ih =>
    have hrest := ih (fun e he => h e (List.mem_cons_of_mem _ he))
      (applyEffect ids params acc effect)
    have hfirst := h effect (List.mem_cons_self ..)
    rw [List.foldl_cons]
    cases effect with
    | custom => simp [staysInside] at hfirst
    | scheduleAction => simp [staysInside] at hfirst
    | scheduleAtAction => simp [staysInside] at hfirst
    | spawnEntity => simp [staysInside] at hfirst
    | _ => exact hrest

/-- A transition of rules whose effects all stay inside is quiet. -/
lemma isQuiet_of_staysInside {ids : Nat → String} {now : Timestamp} {s : EntityState}
    {table : TransitionTable} {action : String} {params : Value} {xref : BTreeMap Bool}
    {mode : FieldSyncMode} {r : ProcessResult}
    (h : processActionWithXrefAndFieldMode ids now s table action params xref mode = .ok r)
    (hinside : ∀ rule ∈ table.rulesNamed action, ∀ effect ∈ rule.effects,
      staysInside effect = true) : isQuiet r = true := by
  unfold processActionWithXrefAndFieldMode at h
  dsimp only at h
  split at h
  next => cases h
  next =>
    split_ifs at h with hbudget
    obtain ⟨-, -, h⟩ := Checks.bind_ok_iff.mp h
    split at h
    next => cases h
    next result heval =>
      split_ifs at h with hsuccess
      obtain ⟨rule, hrule, -, rfl⟩ := TransitionTable.evaluateCtx_success heval hsuccess
      have hmem : rule ∈ table.rulesNamed action := List.mem_of_find?_eq_some hrule
      unfold fireTransition at h
      split at h
      next => cases h
      next =>
        obtain ⟨-, -, h⟩ := Checks.bind_ok_iff.mp h
        cases h
        obtain ⟨hcustom, hscheduled, hspawns, hat⟩ := requests_of_staysInside
          (hinside rule hmem) ids (sanitizeActionParams (normalizeRefActionParams s action
            (table.canonicalizeActionParams action params))) { state := s }
        simp only [isQuiet, applyEffects, hcustom, hscheduled, hspawns, hat,
          resolveScheduleAtRequests, List.filterMap_nil, List.append_nil, List.isEmpty_nil,
          Bool.and_self]

/-- Lists of sub-writes without custom, scheduled or spawn effects are quiet. -/
lemma allQuiet_of_staysInside {server : Server} {writes : List PreparedCompositeSubWrite}
    (h : ∀ write ∈ writes, ∀ table, server.transitionTable write.entityType = some table →
      ∀ rule ∈ table.rulesNamed write.action, ∀ effect ∈ rule.effects,
        staysInside effect = true) : AllQuiet server writes := by
  intro write hwrite table htable state booleans result hresult
  unfold processSubWrite at hresult
  split at hresult
  next hprocess =>
    cases hresult
    exact isQuiet_of_staysInside hprocess (h write hwrite table htable)
  next => cases hresult
  next => cases hresult

/-! ### Lists that look away from what they write -/

section Apart

variable {server : Server} {reads reads' : Reads} {table : TransitionTable}
  {write : PreparedCompositeSubWrite}

/-- The targets of the guards of a sub-write. -/
def guardTargets (server : Server) (reads : Reads) (write : PreparedCompositeSubWrite) :
    List (String × String) :=
  match server.registeredTable write.entityType, reads.fields write.entityType write.entityId with
  | some table, some fields => (crossGuards table write.action).flatMap fun spec =>
      (targetIds fields spec).map (spec.targetType, ·)
  | _, _ => []

/-- The fields of the target of a sub-write that its references are read from. -/
def currentFields (server : Server) (reads : Reads) (write : PreparedCompositeSubWrite) : Value :=
  (reads.entity (server.journalOf write)).elim (.object []) (·.fields)

/-- The entities that a sub-write looks at: its own, and those of its guards and references. -/
def lookedUp (server : Server) (reads : Reads) (table : TransitionTable)
    (write : PreparedCompositeSubWrite) : List (String × String) :=
  (write.entityType, write.entityId) :: guardTargets server reads write ++
    referenceTargets table write.action write.params (currentFields server reads write)

/-- No sub-write looks at an entity that an earlier one addresses. -/
def Apart (server : Server) (reads : Reads) : List String → List PreparedCompositeSubWrite → Prop
  | _, [] => True
  | earlier, write :: writes =>
    (∀ table, server.transitionTable write.entityType = some table →
      ∀ target ∈ lookedUp server reads table write,
        server.persistenceId target.1 target.2 ∉ earlier) ∧
    Apart server reads (earlier ++ [server.journalOf write]) writes

variable {lookup lookup' : StatusLookup}

omit [Host] in
lemma resolveItems_congr {spec : CrossGuardSpec} {items : List Value} (n : Nat)
    (h : ∀ id ∈ items.map fun item => item.asStr.getD "", id ≠ "" →
      lookup spec.targetType id = lookup' spec.targetType id) :
    resolveItems lookup spec items n = resolveItems lookup' spec items n := by
  induction items generalizing n with
  | nil => rfl
  | cons item items ih =>
    have htail := fun m => ih m fun id hid => h id (List.mem_cons_of_mem _ hid)
    unfold resolveItems
    by_cases hempty : item.asStr.getD "" = ""
    · simp only [hempty, if_true]
      exact htail n
    · have htarget : targetOk lookup spec (item.asStr.getD "") =
          targetOk lookup' spec (item.asStr.getD "") := by
        unfold targetOk
        rw [h _ (List.mem_cons_self ..) hempty]
      simp only [hempty, if_false, htarget, htail]

omit [Host] in
lemma resolveSpec_congr {fields : Value} {spec : CrossGuardSpec} (n : Nat)
    (h : ∀ id ∈ targetIds fields spec,
      lookup spec.targetType id = lookup' spec.targetType id) :
    resolveSpec lookup fields spec n = resolveSpec lookup' fields spec n := by
  unfold targetIds at h
  unfold resolveSpec
  cases hlist : listField fields spec with
  | none =>
    rw [hlist] at h
    dsimp only at h ⊢
    by_cases hempty : ((fields.get spec.idSource).bind Value.asStr).getD "" = ""
    · rw [if_pos hempty, if_pos hempty]
    · rw [if_neg hempty, if_neg hempty]
      unfold targetOk
      rw [h _ (by simpa using hempty)]
  | some items =>
    rw [hlist] at h
    cases items with
    | nil => rfl
    | cons item items =>
      refine resolveItems_congr n fun id hid hne => h id ?_
      exact List.mem_filter.mpr ⟨hid, by simpa using hne⟩

omit [Host] in
lemma resolveSpecs_congr {fields : Value} {specs : List CrossGuardSpec} (n : Nat)
    (result : BTreeMap Bool) (h : ∀ spec ∈ specs, ∀ id ∈ targetIds fields spec,
      lookup spec.targetType id = lookup' spec.targetType id) :
    resolveSpecs lookup fields specs n result = resolveSpecs lookup' fields specs n result := by
  induction specs generalizing n result with
  | nil => rfl
  | cons spec specs ih =>
    unfold resolveSpecs
    rw [resolveSpec_congr n (h spec (List.mem_cons_self ..))]
    split_ifs
    · rfl
    · exact ih _ _ fun other hother => h other (List.mem_cons_of_mem _ hother)

/-- The two reads agree on an entity. -/
structure Agree (server : Server) (reads reads' : Reads) (target : String × String) : Prop where
  entity : reads'.entity (server.persistenceId target.1 target.2) =
    reads.entity (server.persistenceId target.1 target.2)
  fields : reads'.fields target.1 target.2 = reads.fields target.1 target.2
  status : reads'.status target.1 target.2 = reads.status target.1 target.2
  durable : reads'.durable target.1 target.2 = reads.durable target.1 target.2

omit [Host] in
lemma guardBooleans_congr (hself : Agree server reads reads' (write.entityType, write.entityId))
    (h : ∀ target ∈ guardTargets server reads write, Agree server reads reads' target) :
    guardBooleans server reads table write = guardBooleans server reads' table write := by
  unfold guardBooleans
  rw [hself.fields]
  dsimp only
  split_ifs
  · unfold resolveCrossEntityGuards
    cases hregistered : server.registeredTable write.entityType with
    | none => rfl
    | some registered =>
      cases hfields : reads.fields write.entityType write.entityId with
      | none => rfl
      | some fields =>
        refine resolveSpecs_congr _ _ fun spec hspec id hid => ?_
        refine (h (spec.targetType, id) ?_).status.symm
        unfold guardTargets
        rw [hregistered, hfields]
        exact List.mem_flatMap.mpr ⟨spec, hspec, List.mem_map.mpr ⟨id, hid, rfl⟩⟩
  · rfl

lemma resolveReferenceEvidence_congr
    (hself : Agree server reads reads' (write.entityType, write.entityId))
    (h : ∀ target ∈ referenceTargets table write.action write.params
      (currentFields server reads write), Agree server reads reads' target) :
    resolveReferenceEvidence server reads table write =
      resolveReferenceEvidence server reads' table write := by
  unfold resolveReferenceEvidence
  dsimp only
  rw [hself.entity]
  refine List.foldl_ext _ _ _ fun evidence target htarget => ?_
  rw [(h target htarget).durable]

lemma crossEntityBooleans_congr (created : List (String × String))
    (h : ∀ target ∈ lookedUp server reads table write, Agree server reads reads' target) :
    crossEntityBooleans server reads created table write =
      crossEntityBooleans server reads' created table write := by
  have hself := h (write.entityType, write.entityId) (List.mem_cons_self ..)
  unfold crossEntityBooleans
  rw [guardBooleans_congr hself fun target htarget => h target
      (List.mem_append_left _ (List.mem_cons_of_mem _ htarget)),
    resolveReferenceEvidence_congr hself fun target htarget => h target
      (List.mem_append_right _ htarget)]

omit [Host] in
/-- Reads agree on what was not written. -/
lemma World.agree {w : World} {target : String × String}
    (h : server.persistenceId target.1 target.2 ∉ w.written) :
    Agree server reads (w.reads server reads) target := by
  constructor <;> simp [World.reads, h]

variable {parent : AtomicCompositeParent} {created : List (String × String)}

lemma written_of_executeNext {w w' : World}
    (h : executeNext server reads parent created w write = .ok w') :
    ∀ journal ∈ w'.written, journal ∈ w.written ++ [server.journalOf write] := by
  unfold executeNext at h
  obtain ⟨streams, -, h⟩ := Checks.bind_ok_iff.mp h
  obtain ⟨table, -, h⟩ := Checks.bind_ok_iff.mp h
  dsimp only at h
  split at h
  next => cases h
  next stream hstream =>
    split_ifs at h
    · cases h
      exact fun journal hjournal => List.mem_append_left _ hjournal
    · obtain ⟨-, -, h⟩ := Checks.bind_ok_iff.mp h
      obtain ⟨result, -, h⟩ := Checks.bind_ok_iff.mp h
      obtain ⟨-, -, h⟩ := Checks.bind_ok_iff.mp h
      obtain ⟨state, -, h⟩ := Checks.bind_ok_iff.mp h
      cases h
      exact fun journal hjournal => hjournal

/-- Sub-writes that look away from what the earlier ones write read alike. -/
theorem readsAlike_of_apart {writes : List PreparedCompositeSubWrite} {w : World}
    {earlier : List String} (hwritten : ∀ journal ∈ w.written, journal ∈ earlier)
    (h : Apart server reads earlier writes) : ReadsAlike server reads parent created w writes := by
  induction writes generalizing w earlier with
  | nil => trivial
  | cons write writes ih =>
    refine ⟨fun table htable => ?_, fun w' hnext => ?_⟩
    · refine crossEntityBooleans_congr created fun target htarget => World.agree fun hmem => ?_
      exact h.1 table htable target htarget (hwritten _ hmem)
    · refine ih (fun journal hjournal => ?_) h.2
      exact List.mem_append.mpr ((List.mem_append.mp (written_of_executeNext hnext journal
        hjournal)).imp_left (hwritten journal))

end Apart

/-- A composite action whose sub-writes pass the preflight, ask for nothing but new states and look
up what the states on the way would answer stages the batch of its sub-writes in order, or fails
as they do. -/
theorem compositeBatch_eq_executeInOrder {server : Server} {reads : Reads}
    {parent : AtomicCompositeParent} {journal : Except String (List JournalEvent)}
    {writes prepared : List PreparedCompositeSubWrite}
    (hpreflight : preflightAll server reads parent writes = .ok prepared)
    (hkeyed : Keyed writes) (hunprocessed : Unprocessed server reads writes)
    (hquiet : AllQuiet server writes)
    (halike : ∀ streams, stageParent server reads journal parent writes = .ok streams →
      ReadsAlike server reads parent (newTargets server reads writes) ⟨streams, []⟩ writes) :
    compositeBatch server reads journal parent prepared =
      (executeInOrder server reads journal parent writes).map some := by
  unfold compositeBatch executeInOrder
  rw [isEmpty_of_preflight hpreflight, stageParent_of_preflight hpreflight,
    createdTargets_of_preflight hpreflight]
  split_ifs
  · rfl
  · cases hparent : stageParent server reads journal parent writes with
    | error e => rfl
    | ok streams =>
      have hspares : ∀ write ∈ writes, Spares server streams write := fun write hwrite =>
        spares_of_stageParent hparent (hkeyed.plain write hwrite) (hunprocessed write hwrite)
      have hrun := stageSubWrites_eq hpreflight hkeyed hunprocessed hquiet
        (halike streams hparent) hspares
      simp only [bind, Except.bind]
      rw [hrun]
      cases executeAll server reads parent (newTargets server reads writes) ⟨streams, []⟩
          writes with
      | error e => rfl
      | ok w =>
        cases hbatch : batchOf server w.streams with
        | error e => simp [Except.map, hbatch]
        | ok batch => simp [Except.map, hbatch, pure, Except.pure]

/-- The whole composite action: preflight and staging. -/
def compositeAction (server : Server) (reads : Reads) (journal : Except String (List JournalEvent))
    (parent : AtomicCompositeParent) (writes : List PreparedCompositeSubWrite) :
    Except DispatchError (Option (List StagedAppend)) := do
  compositeBatch server reads journal parent (← preflightAll server reads parent writes)

end

/-! ### A note on a ticket -/

section Desk

attribute [local instance] Host.ascii

def ticketTable : TransitionTable where
  entityName := "Ticket"
  states := ["Open", "Closed", "Archived"]
  initialState := "Open"
  rules := [⟨"Close", ["Open"], some "Closed", .and [], []⟩,
    ⟨"Archive", ["Closed"], some "Archived", .and [], []⟩]
  actionParams :=
    ((∅ : BTreeMap (BTreeMap ActionParamMetadata)).insert "Close" ∅).insert "Archive" ∅

/-- A note is attached to an open ticket. -/
def noteTable : TransitionTable where
  entityName := "Note"
  states := ["Draft", "Attached"]
  initialState := "Draft"
  rules := [⟨"Attach", ["Draft"], some "Attached",
    .crossEntityStateIn "Ticket" "TicketId" ["Open"] [] true, []⟩]
  actionParams := (∅ : BTreeMap (BTreeMap ActionParamMetadata)).insert "Attach" ∅

def deskTable (entityType : String) : Option TransitionTable :=
  if entityType = "Ticket" then some ticketTable
  else if entityType = "Note" then some noteTable
  else none

def desk : Server where
  pinned := false
  persistenceId entityType entityId := "acme:" ++ entityType ++ ":" ++ entityId
  transitionTable := deskTable
  registeredTable := deskTable
  mode := .inlineTruncate
  creationContract _ _ _ := .error "none"
  declaredKeys _ := []
  blobStore := none
  ids _ _ := ""
  now _ := ⟨""⟩
  begunAt _ := ⟨""⟩

def ticketState (entityId : String) : EntityState where
  entityType := "Ticket"
  entityId := entityId
  status := "Open"
  fields := .object [("Id", .string entityId)]
  totalEventCount := 1
  sequenceNr := 1

def noteFields (ticketId : String) : Value :=
  .object [("Id", .string "n-1"), ("TicketId", .string ticketId)]

def noteState (ticketId : String) : EntityState where
  entityType := "Note"
  entityId := "n-1"
  status := "Draft"
  fields := noteFields ticketId
  totalEventCount := 1
  sequenceNr := 1

/-- Two open tickets, and a note on one of them. -/
def deskReads (ticketId : String) : Reads where
  entity persistenceId :=
    if persistenceId = "acme:Ticket:t-1" then some (ticketState "t-1")
    else if persistenceId = "acme:Ticket:t-2" then some (ticketState "t-2")
    else if persistenceId = "acme:Note:n-1" then some (noteState ticketId)
    else none
  fields entityType _ := if entityType = "Note" then some (noteFields ticketId) else none
  status entityType _ := if entityType = "Ticket" then some "Open" else none
  durable _ _ := true

def deskParent : AtomicCompositeParent := ⟨"acme", "Desk", "d-1", "Settle", "k", false⟩

def subWrite (idx : Nat) (entityType entityId action : String) : PreparedCompositeSubWrite where
  idx := idx
  entityType := entityType
  entityId := entityId
  action := action
  params := .object []
  idempotencyKey := s!"composite:acme:Desk:d-1:Settle:k:subwrite:{idx}"

/-- Close the first ticket, and attach the note. -/
def closeAndAttach : List PreparedCompositeSubWrite :=
  [subWrite 0 "Ticket" "t-1" "Close", subWrite 1 "Note" "n-1" "Attach"]

def closeAndArchive : List PreparedCompositeSubWrite :=
  [subWrite 0 "Ticket" "t-1" "Close", subWrite 1 "Ticket" "t-1" "Archive"]

lemma deskTable_effects {entityType : String} {table : TransitionTable}
    (h : deskTable entityType = some table) : ∀ rule ∈ table.rules, rule.effects = [] := by
  unfold deskTable at h
  split_ifs at h
  · cases h
    simp [ticketTable]
  · cases h
    simp [noteTable]

lemma deskReads_keys {ticketId persistenceId : String} {state : EntityState}
    (h : (deskReads ticketId).entity persistenceId = some state) :
    state.processedIdempotencyKeys = ∅ := by
  unfold deskReads at h
  dsimp only at h
  split_ifs at h
  · cases h
    rfl
  · cases h
    rfl
  · cases h
    rfl

lemma apart_closeAndAttach : Apart desk (deskReads "t-2") [] closeAndAttach := by
  refine ⟨fun table _ target _ => List.not_mem_nil, fun table htable target htarget => ?_, trivial⟩
  have hnote : table = noteTable := (Option.some.inj htable).symm
  subst hnote
  have haway : ∀ target ∈ lookedUp desk (deskReads "t-2") noteTable
      (subWrite 1 "Note" "n-1" "Attach"),
      desk.persistenceId target.1 target.2 ∉ ["acme:Ticket:t-1"] := by decide +kernel
  exact haway target htarget

/-- A note on another ticket is staged as if the ticket had been closed before. -/
theorem note_on_other_ticket_in_order :
    ∃ prepared, preflightAll desk (deskReads "t-2") deskParent closeAndAttach = .ok prepared ∧
      compositeBatch desk (deskReads "t-2") (.ok []) deskParent prepared =
        (executeInOrder desk (deskReads "t-2") (.ok []) deskParent closeAndAttach).map some ∧
      (executeInOrder desk (deskReads "t-2") (.ok []) deskParent closeAndAttach).isOk = true := by
  have hok : (preflightAll desk (deskReads "t-2") deskParent closeAndAttach).isOk = true := by
    decide +kernel
  cases hpreflight : preflightAll desk (deskReads "t-2") deskParent closeAndAttach with
  | error e => simp [hpreflight, Except.isOk, Except.toBool] at hok
  | ok prepared =>
    refine ⟨prepared, rfl, ?_, by decide +kernel⟩
    refine compositeBatch_eq_executeInOrder hpreflight ⟨by decide +kernel, by decide +kernel⟩
      (fun write _ state hstate => ?_) (allQuiet_of_staysInside fun write _ table htable rule hrule
        effect heffect => ?_) fun streams _ => readsAlike_of_apart (fun _ h => h)
        apart_closeAndAttach
    · rw [deskReads_keys hstate]
      rfl
    · rw [deskTable_effects htable rule (List.mem_of_mem_filter hrule)] at heffect
      exact absurd heffect (by simp)

/-- A note is attached to a ticket that the same action closes before; and a ticket cannot be
closed and archived in one action. -/
theorem note_attached_to_closed_ticket :
    (compositeAction desk (deskReads "t-1") (.ok []) deskParent closeAndAttach).isOk = true ∧
      (executeInOrder desk (deskReads "t-1") (.ok []) deskParent closeAndAttach).isOk = false ∧
      (compositeAction desk (deskReads "t-1") (.ok []) deskParent closeAndArchive).isOk = false ∧
      (executeInOrder desk (deskReads "t-1") (.ok []) deskParent closeAndArchive).isOk = true := by
  decide +kernel

end Desk

end Temper.Dispatch.Composite
