import Mathlib
import Temper.Json
import Temper.Lib.Machine

/-!
# The log of pending decisions

Denials wait here for a human. The log is bounded, the oldest entry leaves first, and a second
denial of the same request is not entered while the first is undecided. That is looked up in an
index from key texts to entry ids, and the log deduplicates as long as the index knows every
undecided entry.
-/

namespace Temper.PendingDecisions

open Machine

def pendingDecisionCapacity : Nat := 1000

inductive DecisionStatus where
  | pending
  | approved
  | denied
  | expired
  deriving DecidableEq

/-- The request that was denied. -/
structure Denied where
  tenant : String
  agentId : String
  action : String
  resourceType : String
  resourceId : String
  deriving DecidableEq

structure PendingDecision where
  id : String
  denied : Denied
  status : DecisionStatus
  deriving DecidableEq

def PendingDecision.dedupKey (d : PendingDecision) : String :=
  d.denied.tenant ++ ":" ++ d.denied.agentId ++ ":" ++ d.denied.action ++ ":" ++
    d.denied.resourceType ++ ":" ++ d.denied.resourceId

structure PendingDecisionLog where
  /-- The oldest entry first. -/
  entries : List PendingDecision
  /-- Key text to the id of an entry. -/
  dedupKeys : BTreeMap String

def PendingDecisionLog.new : PendingDecisionLog := ⟨[], ∅⟩

namespace PendingDecisionLog

/-- The index points at an entry that is still pending. -/
def isDuplicate (log : PendingDecisionLog) (key : String) : Bool :=
  match log.dedupKeys[key]? with
  | some existingId => log.entries.any fun d => d.id = existingId && d.status = .pending
  | none => false

/-- Drop the oldest entry, and its key, if the log is full. -/
def evict (log : PendingDecisionLog) : PendingDecisionLog :=
  match log.entries with
  | [] => log
  | evicted :: entries =>
    if log.entries.length ≥ pendingDecisionCapacity then
      ⟨entries, log.dedupKeys.erase evicted.dedupKey⟩
    else log

/-- Whether the decision was added is returned beside the log. -/
def push (log : PendingDecisionLog) (decision : PendingDecision) : PendingDecisionLog × Bool :=
  if log.isDuplicate decision.dedupKey then (log, false)
  else
    let log := log.evict
    (⟨log.entries ++ [decision], log.dedupKeys.insert decision.dedupKey decision.id⟩, true)

/-- Change the first entry with an id. -/
def getMut (id : String) (change : PendingDecision → PendingDecision) :
    List PendingDecision → List PendingDecision
  | [] => []
  | d :: entries => if d.id = id then change d :: entries else d :: getMut id change entries

/-- A human decides an entry that is pending. -/
def decide (log : PendingDecisionLog) (id : String) (approve : Bool) : PendingDecisionLog :=
  { log with
    entries := getMut id
      (fun d => if d.status = .pending then
        { d with status := if approve then .approved else .denied } else d) log.entries }

end PendingDecisionLog

inductive Event where
  | push (decision : PendingDecision)
  | decide (id : String) (approve : Bool)

def step (log : PendingDecisionLog) : Event → PendingDecisionLog
  | .push decision => (log.push decision).1
  | .decide id approve => log.decide id approve

/-- The ids of the decisions pushed in a run. -/
def pushedIds (events : List Event) : List String :=
  events.filterMap fun
    | .push decision => some decision.id
    | .decide _ _ => none

/-! ### What the log is for -/

def Undecided (log : PendingDecisionLog) (denied : Denied) (d : PendingDecision) : Prop :=
  d ∈ log.entries ∧ d.status = .pending ∧ d.denied = denied

/-- The log is bounded and holds at most one undecided entry for each request. -/
structure Deduplicated (log : PendingDecisionLog) : Prop where
  bounded : log.entries.length ≤ pendingDecisionCapacity
  unique : ∀ denied,
    (log.entries.filter fun d => d.status = .pending ∧ d.denied = denied).length ≤ 1

/-- A push is refused exactly when the request is already waiting. -/
def AnswersExactly (log : PendingDecisionLog) : Event → Prop
  | .push decision => (log.push decision).2 = false ↔ ∃ d, Undecided log decision.denied d
  | .decide _ _ => True

/-- A push meets no other request under the same key text, and does not evict an entry whose key
text an undecided later entry has too. -/
structure SafePush (log : PendingDecisionLog) (decision : PendingDecision) : Prop where
  distinct : ∀ d ∈ log.entries, d.status = .pending → d.dedupKey = decision.dedupKey →
    d.denied = decision.denied
  evicts : (∀ d ∈ log.entries, d.status = .pending → d.dedupKey ≠ decision.dedupKey) →
    log.entries.length ≥ pendingDecisionCapacity → ∀ evicted later,
      log.entries = evicted :: later → ∀ d ∈ later, d.status = .pending →
        d.dedupKey ≠ evicted.dedupKey

def Safe (log : PendingDecisionLog) : Event → Prop
  | .push decision => SafePush log decision
  | .decide _ _ => True

/-! ### The index knows every undecided entry -/

structure Indexed (log : PendingDecisionLog) : Prop where
  bounded : log.entries.length ≤ pendingDecisionCapacity
  ids : (log.entries.map PendingDecision.id).Nodup
  known : ∀ d ∈ log.entries, d.status = .pending → log.dedupKeys[d.dedupKey]? = some d.id
  pointed : ∀ (key id : String), log.dedupKeys[key]? = some id →
    ∃ d ∈ log.entries, d.id = id ∧ d.dedupKey = key

lemma indexed_new : Indexed PendingDecisionLog.new := by
  constructor <;> simp [PendingDecisionLog.new]

variable {log : PendingDecisionLog} {decision : PendingDecision}

lemma Indexed.eq_of_id (h : Indexed log) {d e : PendingDecision} (hd : d ∈ log.entries)
    (he : e ∈ log.entries) (hid : d.id = e.id) : d = e :=
  List.inj_on_of_nodup_map h.ids hd he hid

lemma Indexed.isDuplicate_iff (h : Indexed log) (key : String) :
    log.isDuplicate key = true ↔ ∃ d ∈ log.entries, d.status = .pending ∧ d.dedupKey = key := by
  rw [PendingDecisionLog.isDuplicate]
  constructor
  · intro hdup
    split at hdup
    next existingId hkey =>
      simp only [List.any_eq_true, Bool.and_eq_true, decide_eq_true_eq] at hdup
      obtain ⟨d, hd, hid, hpending⟩ := hdup
      obtain ⟨e, he, heid, hekey⟩ := h.pointed key existingId hkey
      cases h.eq_of_id hd he (hid.trans heid.symm)
      exact ⟨d, hd, hpending, hekey⟩
    next => simp at hdup
  · rintro ⟨d, hd, hpending, rfl⟩
    rw [h.known d hd hpending]
    simp only [List.any_eq_true, Bool.and_eq_true, decide_eq_true_eq]
    exact ⟨d, hd, rfl, hpending⟩

/-- Two undecided entries under one key text have the id that the index holds there. -/
lemma Indexed.deduplicated (h : Indexed log) : Deduplicated log := by
  refine ⟨h.bounded, fun denied => ?_⟩
  have hnodup : (log.entries.filter fun d => d.status = .pending ∧ d.denied = denied).Nodup :=
    (List.Nodup.of_map _ h.ids).filter _
  rw [← List.toFinset_card_of_nodup hnodup, Finset.card_le_one]
  intro d hd e he
  simp only [List.mem_toFinset, List.mem_filter, decide_eq_true_eq] at hd he
  have hkey : d.dedupKey = e.dedupKey := by
    rw [PendingDecision.dedupKey, PendingDecision.dedupKey, hd.2.2, he.2.2]
  have hknown := h.known d hd.1 hd.2.1
  rw [hkey, h.known e he.1 he.2.1] at hknown
  exact h.eq_of_id hd.1 he.1 (Option.some.inj hknown).symm

lemma Indexed.answersExactly (h : Indexed log) {e : Event} (hsafe : Safe log e) :
    AnswersExactly log e := by
  cases e with
  | decide id approve => trivial
  | push decision =>
    have hfalse : (log.push decision).2 = false ↔ log.isDuplicate decision.dedupKey = true := by
      rw [PendingDecisionLog.push]
      split_ifs with hdup <;> simp [hdup]
    rw [AnswersExactly, hfalse, h.isDuplicate_iff]
    constructor
    · rintro ⟨d, hd, hpending, hkey⟩
      exact ⟨d, hd, hpending, hsafe.distinct d hd hpending hkey⟩
    · rintro ⟨d, hd, hpending, hdenied⟩
      refine ⟨d, hd, hpending, ?_⟩
      rw [PendingDecision.dedupKey, PendingDecision.dedupKey, hdenied]

/-- Room is made for one entry, and what leaves takes only its own key with it. -/
lemma Indexed.evict (h : Indexed log)
    (hfront : log.entries.length ≥ pendingDecisionCapacity → ∀ evicted later,
      log.entries = evicted :: later → ∀ d ∈ later, d.status = .pending →
        d.dedupKey ≠ evicted.dedupKey) :
    Indexed log.evict ∧ log.evict.entries.length < pendingDecisionCapacity ∧
      ∀ d ∈ log.evict.entries, d ∈ log.entries := by
  rw [PendingDecisionLog.evict]
  split
  next hnil =>
    refine ⟨h, ?_, fun d hd => hd⟩
    rw [hnil]
    decide
  next evicted later hentries =>
    split_ifs with hfull
    · have hids := h.ids
      have hbounded := h.bounded
      rw [hentries] at hids hbounded
      refine ⟨⟨?_, ?_, ?_, ?_⟩, ?_, ?_⟩
      · exact (Nat.le_succ _).trans hbounded
      · exact (List.nodup_cons.1 hids).2
      · intro d hd hpending
        rw [Std.ExtTreeMap.getElem?_erase, if_neg]
        · exact h.known d (hentries ▸ List.mem_cons_of_mem _ hd) hpending
        · rw [Std.LawfulEqCmp.compare_eq_iff_eq]
          exact (hfront hfull evicted later hentries d hd hpending).symm
      · intro key id hkey
        simp only [Std.ExtTreeMap.getElem?_erase, Std.LawfulEqCmp.compare_eq_iff_eq] at hkey
        split_ifs at hkey with hne
        obtain ⟨d, hd, hid, rfl⟩ := h.pointed key id hkey
        rw [hentries, List.mem_cons] at hd
        rcases hd with rfl | hd
        · exact absurd rfl hne
        · exact ⟨d, hd, hid, rfl⟩
      · exact Nat.lt_of_succ_le hbounded
      · exact fun d hd => hentries ▸ List.mem_cons_of_mem _ hd
    · exact ⟨h, not_le.1 hfull, fun d hd => hd⟩

lemma Indexed.push (h : Indexed log) (hsafe : SafePush log decision)
    (hfresh : ∀ d ∈ log.entries, d.id ≠ decision.id) : Indexed (log.push decision).1 := by
  rw [PendingDecisionLog.push]
  split_ifs with hdup
  · exact h
  · -- not a duplicate: no undecided entry has the key text
    rw [h.isDuplicate_iff] at hdup
    have hnew : ∀ d ∈ log.entries, d.status = .pending → d.dedupKey ≠ decision.dedupKey :=
      fun d hd hpending hkey => hdup ⟨d, hd, hpending, hkey⟩
    obtain ⟨hevicted, hroom, hold⟩ := h.evict (hsafe.evicts hnew)
    refine ⟨?_, ?_, ?_, ?_⟩
    · simpa using hroom
    · simp only [List.map_append, List.map_cons, List.map_nil, List.nodup_append]
      refine ⟨hevicted.ids, by simp, ?_⟩
      intro id hid other hother
      obtain ⟨d, hd, rfl⟩ := List.mem_map.1 hid
      rw [List.mem_singleton.1 hother]
      exact hfresh d (hold d hd)
    · intro d hd hpending
      simp only [Std.ExtTreeMap.getElem?_insert, Std.LawfulEqCmp.compare_eq_iff_eq]
      rcases List.mem_append.1 hd with hd | hd
      · rw [if_neg (hnew d (hold d hd) hpending).symm]
        exact hevicted.known d hd hpending
      · rw [List.mem_singleton.1 hd, if_pos rfl]
    · intro key id hkey
      simp only [Std.ExtTreeMap.getElem?_insert, Std.LawfulEqCmp.compare_eq_iff_eq] at hkey
      split_ifs at hkey with heq
      · cases hkey
        exact ⟨decision, by simp, rfl, heq⟩
      · obtain ⟨d, hd, hd'⟩ := hevicted.pointed key id hkey
        exact ⟨d, List.mem_append_left _ hd, hd'⟩

/-! ### Deciding -/

section GetMut

variable {id : String} {change : PendingDecision → PendingDecision}
  {entries : List PendingDecision}

lemma map_getMut {β : Type} {f : PendingDecision → β} (hf : ∀ d, f (change d) = f d) :
    (PendingDecisionLog.getMut id change entries).map f = entries.map f := by
  induction entries with
  | nil => rfl
  | cons d entries ih =>
    rw [PendingDecisionLog.getMut]
    split_ifs <;> simp [hf, ih]

lemma mem_of_mem_getMut {d : PendingDecision}
    (h : d ∈ PendingDecisionLog.getMut id change entries) :
    d ∈ entries ∨ ∃ e ∈ entries, d = change e := by
  induction entries with
  | nil => exact .inl h
  | cons e entries ih =>
    rw [PendingDecisionLog.getMut] at h
    split_ifs at h
    · rcases List.mem_cons.1 h with rfl | h
      · exact .inr ⟨e, by simp, rfl⟩
      · exact .inl (List.mem_cons_of_mem _ h)
    · rcases List.mem_cons.1 h with rfl | h
      · exact .inl (by simp)
      · rcases ih h with h | ⟨e', he', heq⟩
        · exact .inl (List.mem_cons_of_mem _ h)
        · exact .inr ⟨e', List.mem_cons_of_mem _ he', heq⟩

end GetMut

lemma Indexed.decide (h : Indexed log) (id : String) (approve : Bool) :
    Indexed (log.decide id approve) := by
  -- ids and key texts stay, and an entry that is pending afterwards was there before
  have hmap : ∀ {β : Type} (f : PendingDecision → β),
      (∀ d status, f { d with status } = f d) →
        (log.decide id approve).entries.map f = log.entries.map f := by
    intro β f hf
    apply map_getMut
    intro d
    split_ifs <;> simp [hf]
  have hpending : ∀ d ∈ (log.decide id approve).entries, d.status = .pending → d ∈ log.entries := by
    intro d hd hpending
    rcases mem_of_mem_getMut hd with hd | ⟨e, he, rfl⟩
    · exact hd
    · by_cases hstatus : e.status = .pending
      · cases approve <;> simp [hstatus] at hpending
      · simpa [hstatus] using he
  refine ⟨?_, ?_, fun d hd hp => h.known d (hpending d hd hp) hp, ?_⟩
  · rw [← List.length_map PendingDecision.id, hmap _ fun _ _ => rfl, List.length_map]
    exact h.bounded
  · rw [hmap _ fun _ _ => rfl]
    exact h.ids
  · intro key existing hkey
    obtain ⟨d, hd, rfl, rfl⟩ := h.pointed key existing hkey
    have hmem : (d.id, d.dedupKey) ∈ (log.decide id approve).entries.map
        (fun d => (d.id, d.dedupKey)) := by
      rw [hmap (fun d => (d.id, d.dedupKey)) fun _ _ => rfl]
      exact List.mem_map_of_mem hd
    obtain ⟨e, he, heq⟩ := List.mem_map.1 hmem
    rw [Prod.mk.injEq] at heq
    exact ⟨e, he, heq⟩

/-! ### Runs -/

/-- The id of a pushed decision is new to the log. -/
def Fresh (log : PendingDecisionLog) : Event → Prop
  | .push decision => ∀ d ∈ log.entries, d.id ≠ decision.id
  | .decide _ _ => True

lemma Indexed.step (h : Indexed log) {e : Event} (hfresh : Fresh log e) (hsafe : Safe log e) :
    Indexed (step log e) := by
  cases e with
  | push decision => exact h.push hsafe hfresh
  | decide id approve => exact h.decide id approve

/-- The ids in a log come from it or from the event. -/
lemma mem_ids_step {e : Event} {id : String}
    (h : id ∈ (step log e).entries.map PendingDecision.id) :
    id ∈ log.entries.map PendingDecision.id ∨ id ∈ pushedIds [e] := by
  cases e with
  | push decision =>
    have hevict : ∀ d ∈ log.evict.entries, d ∈ log.entries := by
      intro d hd
      rw [PendingDecisionLog.evict] at hd
      split at hd
      next => exact hd
      next evicted later hentries =>
        split_ifs at hd
        · exact hentries ▸ List.mem_cons_of_mem _ hd
        · exact hd
    rw [PendingDecisions.step, PendingDecisionLog.push] at h
    split_ifs at h
    · exact .inl h
    · simp only [List.map_append, List.mem_append, List.mem_map] at h
      rcases h with ⟨d, hd, rfl⟩ | ⟨d, hd, rfl⟩
      · exact .inl (List.mem_map_of_mem (hevict d hd))
      · rw [List.mem_singleton] at hd
        simp [pushedIds, hd]
  | decide decided approve =>
    left
    rw [PendingDecisions.step, PendingDecisionLog.decide, map_getMut] at h
    · exact h
    · intro d
      split_ifs <;> rfl

lemma along_fresh {events : List Event} (hids : (pushedIds events).Nodup)
    (hnew : ∀ id ∈ log.entries.map PendingDecision.id, id ∉ pushedIds events) :
    Along step Fresh log events := by
  induction events generalizing log with
  | nil => trivial
  | cons e events ih =>
    have hsplit : pushedIds (e :: events) = pushedIds [e] ++ pushedIds events := by
      rw [pushedIds, pushedIds, pushedIds, ← List.filterMap_append, List.singleton_append]
    rw [hsplit] at hids hnew
    refine ⟨?_, ih hids.of_append_right ?_⟩
    · cases e with
      | decide id approve => trivial
      | push decision =>
        intro d hd heq
        refine hnew d.id (List.mem_map_of_mem hd) (List.mem_append_left _ ?_)
        simp [pushedIds, heq]
    · intro id hid
      rcases mem_ids_step hid with hid | hid
      · exact fun h => hnew id hid (List.mem_append_right _ h)
      · exact fun h => (List.nodup_append.1 hids).2.2 id hid id h rfl

/-- In a run of pushes that are safe, with ids of their own, every push is refused exactly when its
request is already waiting, and every log on the way is bounded and holds each request that waits
once. -/
theorem pending_decisions_are_deduplicated_exactly (events : List Event)
    (hids : (pushedIds events).Nodup) (hsafe : Along step Safe PendingDecisionLog.new events) :
    Along step AnswersExactly PendingDecisionLog.new events ∧
      ∀ before after, events = before ++ after →
        Deduplicated (before.foldl step PendingDecisionLog.new) := by
  have hfresh : Along step Fresh PendingDecisionLog.new events :=
    along_fresh hids (by simp [PendingDecisionLog.new])
  have hrun := along_and.2 ⟨hfresh, hsafe⟩
  have hstep : ∀ log e, Indexed log → Fresh log e ∧ Safe log e → Indexed (step log e) :=
    fun log e h he => h.step he.1 he.2
  refine ⟨hrun.ensures hstep (fun log e h he => h.answersExactly he.2) indexed_new, ?_⟩
  rintro before after rfl
  rw [along_append] at hrun
  exact (hrun.1.invariant hstep indexed_new).deduplicated

def submitDenied (id : String) : PendingDecision :=
  ⟨id, ⟨"acme", "bot", "submit", "Order", "o1"⟩, .pending⟩

/-- One request, denied twice. -/
def repeatedDenial : List Event := [.push (submitDenied "PD-1"), .push (submitDenied "PD-2")]

lemma push_new (decision : PendingDecision) :
    PendingDecisionLog.new.push decision =
      (⟨[decision], (∅ : BTreeMap String).insert decision.dedupKey decision.id⟩, true) := by
  simp [PendingDecisionLog.push, PendingDecisionLog.isDuplicate, PendingDecisionLog.evict,
    PendingDecisionLog.new]

theorem repeated_denial_is_entered_once :
    Along step AnswersExactly PendingDecisionLog.new repeatedDenial ∧
      Deduplicated (repeatedDenial.foldl step PendingDecisionLog.new) := by
  have hsafe : Along step Safe PendingDecisionLog.new repeatedDenial := by
    refine ⟨⟨?_, ?_⟩, ⟨?_, ?_⟩, trivial⟩
    · simp [PendingDecisionLog.new]
    · simp [PendingDecisionLog.new]
    · simp [step, push_new, submitDenied]
    · simp [step, push_new, pendingDecisionCapacity]
  have hrun := pending_decisions_are_deduplicated_exactly repeatedDenial (by decide +kernel) hsafe
  exact ⟨hrun.1, hrun.2 repeatedDenial [] (by simp)⟩

/-- Two requests whose components give the same key text. -/
def collidingDenials : List Event :=
  [.push ⟨"PD-1", ⟨"acme", "bot", "submit", "Order", "o1:2"⟩, .pending⟩,
    .push ⟨"PD-2", ⟨"acme", "bot", "submit", "Order:o1", "2"⟩, .pending⟩]

/-- The second request is refused and its denial lost, though nothing waits for it. -/
theorem colliding_denial_is_refused :
    (pushedIds collidingDenials).Nodup ∧
      ¬ Along step AnswersExactly PendingDecisionLog.new collidingDenials := by
  refine ⟨by decide +kernel, ?_⟩
  rintro ⟨_, hsecond, _⟩
  have hkey : (⟨"PD-1", ⟨"acme", "bot", "submit", "Order", "o1:2"⟩, .pending⟩ :
      PendingDecision).dedupKey =
    (⟨"PD-2", ⟨"acme", "bot", "submit", "Order:o1", "2"⟩, .pending⟩ :
      PendingDecision).dedupKey := by
    decide +kernel
  rw [AnswersExactly, step, push_new, hkey] at hsecond
  obtain ⟨d, hd, _, hdenied⟩ := hsecond.1 (by
    simp [PendingDecisionLog.push, PendingDecisionLog.isDuplicate])
  rw [List.mem_singleton.1 hd] at hdenied
  revert hdenied
  decide +kernel

end Temper.PendingDecisions
