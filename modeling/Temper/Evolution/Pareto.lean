import Mathlib
import Temper.Json
import Temper.Lib.Frontier

/-!
# The Pareto frontier

Candidates are kept while no other candidate is at least as good on every objective and better on
one. Beside the members there is a mapping from frontier keys to the candidates that support them,
from which `removeDominatedPrograms` drops the candidates that every one of their keys can spare.
-/

namespace Temper.Evolution

open Frontier

variable {α : Type} [LinearOrder α] [Zero α]

/-- The fields of a candidate that the frontier reads. -/
structure Candidate (α : Type) where
  id : String
  scores : BTreeMap α

structure ParetoFrontier (α : Type) where
  members : BTreeMap (Candidate α)

abbrev FrontierMapping := BTreeMap (Finset String)
abbrev AggregateScores (α : Type) := BTreeMap α

def ParetoFrontier.new : ParetoFrontier α := ⟨∅⟩

/-- The values of a map in the order of its keys. -/
def valuesOf {β : Type} (map : BTreeMap β) : List β := map.toList.map Prod.snd

lemma mem_valuesOf {β : Type} {map : BTreeMap β} {value : β} :
    value ∈ valuesOf map ↔ ∃ key : String, map[key]? = some value := by
  simp [valuesOf, Std.ExtTreeMap.mem_toList_iff_getElem?_eq_some]

/-! ### Dominance -/

/-- A missing score counts as zero. -/
def scoreOf (scores : BTreeMap α) (key : String) : α := scores[key]?.getD 0

/-- The loop over the keys of both sides: stops at a key where `a` is worse, and else reports
whether `a` was better on one. -/
def compareKeys (a b : BTreeMap α) : List String → Bool → Bool
  | [], strictlyBetter => strictlyBetter
  | key :: keys, strictlyBetter =>
    if scoreOf a key < scoreOf b key then false
    else compareKeys a b keys (strictlyBetter || scoreOf b key < scoreOf a key)

def dominates (a b : BTreeMap α) : Bool :=
  if a.isEmpty || b.isEmpty then false
  else compareKeys a b (a.keys ++ b.keys).dedup false

def tryAdd (frontier : ParetoFrontier α) (candidate : Candidate α) : ParetoFrontier α × Bool :=
  if (valuesOf frontier.members).any fun existing => dominates existing.scores candidate.scores then
    (frontier, false)
  else
    let dominated := (frontier.members.toList.filter fun entry =>
      dominates candidate.scores entry.2.scores).map Prod.fst
    let members := dominated.foldl (fun members id => members.erase id) frontier.members
    (⟨members.insert candidate.id candidate⟩, true)

/-! ### Reducing a mapping -/

/-- The keys of the frequency table, which is filled from every front. -/
def programsOf (mapping : FrontierMapping) : Finset String :=
  (valuesOf mapping).foldl (fun programs front => programs ∪ front) ∅

/-- Ascending by aggregate score, and by id where the scores are equal. -/
def rankedBefore (aggregateScores : AggregateScores α) (a b : String) : Bool :=
  let aScore := scoreOf aggregateScores a
  let bScore := scoreOf aggregateScores b
  aScore < bScore || (aScore == bScore && a ≤ b)

def isDominatedInMapping (candidateId : String) (otherCandidates : Finset String)
    (mapping : FrontierMapping) : Bool :=
  let frontsForCandidate := (valuesOf mapping).filter fun front => candidateId ∈ front
  if frontsForCandidate.isEmpty then false
  else frontsForCandidate.all fun front => decide (∃ other ∈ front, other ∈ otherCandidates)

/-- One pass over the programs: the first that is not marked yet and that the others can
replace. -/
def nextDominated (mapping : FrontierMapping) (programs : List String)
    (dominated : Finset String) : Option String :=
  programs.find? fun y => y ∉ dominated &&
    isDominatedInMapping y (programs.toFinset.filter fun p => p ≠ y ∧ p ∉ dominated) mapping

variable {y : String}

lemma nextDominated_some {mapping : FrontierMapping} {programs : List String}
    {dominated : Finset String} (h : nextDominated mapping programs dominated = some y) :
    y ∈ programs ∧ y ∉ dominated := by
  refine ⟨List.mem_of_find?_eq_some h, ?_⟩
  have := List.find?_some h
  simp only [Bool.and_eq_true, decide_eq_true_eq] at this
  exact this.1

/-- Each pass starts again from the first program, until a pass marks nothing. -/
def removalLoop (mapping : FrontierMapping) (programs : List String)
    (dominated : Finset String) : Finset String :=
  match _h : nextDominated mapping programs dominated with
  | none => dominated
  | some y => removalLoop mapping programs (insert y dominated)
termination_by (programs.toFinset \ dominated).card
decreasing_by
  obtain ⟨hy, hfresh⟩ := nextDominated_some _h
  apply Finset.card_lt_card
  rw [Finset.ssubset_iff_of_subset (Finset.sdiff_subset_sdiff subset_rfl (by simp))]
  exact ⟨y, by simp [hy, hfresh], by simp⟩

/-- The programs of a mapping in the order in which they are tried. -/
def rankedPrograms (mapping : FrontierMapping) (aggregateScores : AggregateScores α) :
    List String :=
  ((programsOf mapping).sort).mergeSort (rankedBefore aggregateScores)

def dominators (mapping : FrontierMapping) (aggregateScores : AggregateScores α) :
    Finset String :=
  let programs := rankedPrograms mapping aggregateScores
  let dominated := removalLoop mapping programs ∅
  programs.toFinset.filter (· ∉ dominated)

def removeDominatedPrograms (mapping : FrontierMapping) (aggregateScores : AggregateScores α) :
    FrontierMapping :=
  mapping.filterMap fun _ front =>
    let filtered := front.filter (· ∈ dominators mapping aggregateScores)
    if filtered.Nonempty then some filtered else none

/-! ### Dominance is a strict order -/

lemma compareKeys_eq_true {a b : BTreeMap α} {keys : List String} {strictlyBetter : Bool} :
    compareKeys a b keys strictlyBetter = true ↔
      (∀ key ∈ keys, scoreOf b key ≤ scoreOf a key) ∧
        (strictlyBetter = true ∨ ∃ key ∈ keys, scoreOf b key < scoreOf a key) := by
  induction keys generalizing strictlyBetter with
  | nil => simp [compareKeys]
  | cons key keys ih =>
    rw [compareKeys]
    split_ifs with hworse
    · simp [hworse]
    · rw [ih]
      simp [not_lt.1 hworse, or_assoc]

omit [LinearOrder α] in
lemma scoreOf_of_not_mem {scores : BTreeMap α} {key : String} (h : key ∉ scores) :
    scoreOf scores key = 0 := by
  simp [scoreOf, h]

lemma dominates_iff {a b : BTreeMap α} :
    dominates a b = true ↔
      (a.isEmpty = false ∧ b.isEmpty = false) ∧ (∀ key, scoreOf b key ≤ scoreOf a key) ∧
        ∃ key, scoreOf b key < scoreOf a key := by
  -- off the keys of both sides the two scores are zero
  have hoff : ∀ key, key ∉ a.keys ++ b.keys → scoreOf a key = scoreOf b key := by
    intro key hkey
    simp only [List.mem_append, Std.ExtTreeMap.mem_keys, not_or] at hkey
    rw [scoreOf_of_not_mem hkey.1, scoreOf_of_not_mem hkey.2]
  rw [dominates]
  split_ifs with hempty
  · simp only [Bool.or_eq_true] at hempty
    rcases hempty with h | h <;> simp [h]
  · simp only [Bool.or_eq_true, not_or, Bool.not_eq_true] at hempty
    simp only [hempty, and_self, true_and, compareKeys_eq_true, Bool.false_eq_true, false_or,
      List.mem_dedup]
    refine and_congr ⟨fun h key => ?_, fun h key _ => h key⟩ ⟨?_, ?_⟩
    · by_cases hkey : key ∈ a.keys ++ b.keys
      · exact h key hkey
      · exact (hoff key hkey).ge
    · rintro ⟨key, _, hlt⟩
      exact ⟨key, hlt⟩
    · rintro ⟨key, hlt⟩
      refine ⟨key, ?_, hlt⟩
      by_contra hkey
      exact absurd (hoff key hkey) hlt.ne'

lemma dominates_irrefl (a : BTreeMap α) : ¬ dominates a a = true := by
  rw [dominates_iff]
  rintro ⟨_, _, key, hlt⟩
  exact lt_irrefl _ hlt

lemma dominates_trans {a b c : BTreeMap α} (hab : dominates a b = true)
    (hbc : dominates b c = true) : dominates a c = true := by
  rw [dominates_iff] at hab hbc ⊢
  obtain ⟨⟨ha, _⟩, hgeab, key, hlt⟩ := hab
  obtain ⟨⟨_, hc⟩, hgebc, _⟩ := hbc
  exact ⟨⟨ha, hc⟩, fun key => (hgebc key).trans (hgeab key), key, (hgebc key).trans_lt hlt⟩

/-! ### The members are a skyline of the offers -/

/-- Offer the candidates one after the other. -/
def offerAll (frontier : ParetoFrontier α) (candidates : List (Candidate α)) : ParetoFrontier α :=
  candidates.foldl (fun frontier candidate => (tryAdd frontier candidate).1) frontier

def memberSet (frontier : ParetoFrontier α) : Set (Candidate α) :=
  {c | ∃ id : String, frontier.members[id]? = some c}

def Dominates (a b : Candidate α) : Prop := dominates a.scores b.scores = true

/-- Members stand under their own ids, and they are a skyline of what was offered. -/
structure Tracks (frontier : ParetoFrontier α) (offered : List (Candidate α)) : Prop where
  keyed : ∀ (id : String) c, frontier.members[id]? = some c → c.id = id ∧ c ∈ offered
  skyline : Skyline Dominates (memberSet frontier) {c | c ∈ offered}

lemma Tracks.new : Tracks (ParetoFrontier.new : ParetoFrontier α) [] where
  keyed := by simp [ParetoFrontier.new]
  skyline := by
    have : memberSet (ParetoFrontier.new : ParetoFrontier α) = ∅ := by
      simp [memberSet, ParetoFrontier.new]
    rw [this]
    simpa using skyline_empty

lemma getElem?_eraseAll {β : Type} (ids : List String) (map : BTreeMap β) (id : String) :
    (ids.foldl (fun map id => map.erase id) map)[id]? = if id ∈ ids then none else map[id]? := by
  induction ids generalizing map with
  | nil => simp
  | cons first ids ih =>
    rw [List.foldl_cons, ih, Std.ExtTreeMap.getElem?_erase]
    by_cases hrest : id ∈ ids
    · simp [hrest]
    · by_cases hfirst : id = first
      · simp [hfirst]
      · simp [hrest, hfirst, Ne.symm hfirst]

variable {frontier : ParetoFrontier α} {candidate : Candidate α}

lemma tryAdd_rejected (h : ∃ m ∈ memberSet frontier, Dominates m candidate) :
    tryAdd frontier candidate = (frontier, false) := by
  obtain ⟨m, ⟨id, hm⟩, hdom⟩ := h
  rw [tryAdd, if_pos]
  rw [List.any_eq_true]
  exact ⟨m, mem_valuesOf.2 ⟨id, hm⟩, hdom⟩

lemma tryAdd_accepted (h : ¬ ∃ m ∈ memberSet frontier, Dominates m candidate) (id : String)
    (c : Candidate α) :
    (tryAdd frontier candidate).1.members[id]? = some c ↔
      (id = candidate.id ∧ c = candidate) ∨
        (id ≠ candidate.id ∧ frontier.members[id]? = some c ∧ ¬ Dominates candidate c) := by
  have hnone : ¬ ((valuesOf frontier.members).any fun existing =>
      dominates existing.scores candidate.scores) = true := by
    rw [List.any_eq_true]
    rintro ⟨m, hm, hdom⟩
    exact h ⟨m, mem_valuesOf.1 hm, hdom⟩
  rw [tryAdd, if_neg hnone]
  simp only [Std.ExtTreeMap.getElem?_insert, Std.LawfulEqCmp.compare_eq_iff_eq, getElem?_eraseAll]
  by_cases hid : candidate.id = id
  · simp [hid, eq_comm]
  · simp only [hid, Ne.symm hid, if_false, false_and, false_or, ne_eq, not_false_eq_true, true_and]
    split_ifs with hgone
    · obtain ⟨⟨_, m⟩, hm, rfl⟩ := List.mem_map.1 hgone
      obtain ⟨hm, hdom⟩ := List.mem_filter.1 hm
      simp only [false_iff, not_and, not_not]
      intro hc
      rw [Std.ExtTreeMap.mem_toList_iff_getElem?_eq_some.1 hm] at hc
      exact Option.some.inj hc ▸ hdom
    · refine ⟨fun hc => ⟨hc, fun hdom => ?_⟩, fun hc => hc.1⟩
      refine hgone (List.mem_map.2 ⟨(id, c), List.mem_filter.2 ⟨?_, hdom⟩, rfl⟩)
      exact Std.ExtTreeMap.mem_toList_iff_getElem?_eq_some.2 hc

lemma Tracks.tryAdd {offered : List (Candidate α)} (h : Tracks frontier offered)
    (hfresh : candidate.id ∉ offered.map Candidate.id) :
    Tracks (tryAdd frontier candidate).1 (offered ++ [candidate]) := by
  have hoffered : {c | c ∈ offered ++ [candidate]} = insert candidate {c | c ∈ offered} := by
    ext c
    simp [or_comm]
  by_cases hdom : ∃ m ∈ memberSet frontier, Dominates m candidate
  · rw [tryAdd_rejected hdom]
    refine ⟨fun id c hc => ?_, hoffered ▸ h.skyline.reject hdom⟩
    exact ⟨(h.keyed id c hc).1, List.mem_append_left _ (h.keyed id c hc).2⟩
  · have hmembers : memberSet (Evolution.tryAdd frontier candidate).1 =
        insert candidate {m ∈ memberSet frontier | ¬ Dominates candidate m} := by
      ext c
      simp only [memberSet, Set.mem_ofPred_eq, tryAdd_accepted hdom, Set.mem_insert_iff]
      constructor
      · rintro ⟨id, ⟨_, hc⟩ | ⟨_, hc, hkept⟩⟩
        · exact .inl hc
        · exact .inr ⟨⟨id, hc⟩, hkept⟩
      · rintro (hc | ⟨⟨id, hc⟩, hkept⟩)
        · exact ⟨candidate.id, .inl ⟨rfl, hc⟩⟩
        · refine ⟨id, .inr ⟨?_, hc, hkept⟩⟩
          -- the id is one that was offered before, and the candidate's is not
          rintro rfl
          obtain ⟨hid, hmem⟩ := h.keyed _ c hc
          exact hfresh (hid ▸ List.mem_map_of_mem hmem)
    refine ⟨fun id c hc => ?_, ?_⟩
    · rw [tryAdd_accepted hdom] at hc
      rcases hc with ⟨rfl, rfl⟩ | ⟨_, hc, _⟩
      · simp
      · exact ⟨(h.keyed id c hc).1, List.mem_append_left _ (h.keyed id c hc).2⟩
    · rw [hmembers, hoffered]
      refine h.skyline.accept (dominates_irrefl _) dominates_trans ?_
      simpa using hdom

lemma Tracks.offerAll {candidates : List (Candidate α)} {offered : List (Candidate α)}
    (h : Tracks frontier offered) (hdistinct : ((offered ++ candidates).map Candidate.id).Nodup) :
    Tracks (offerAll frontier candidates) (offered ++ candidates) := by
  induction candidates generalizing frontier offered with
  | nil => simpa [Evolution.offerAll] using h
  | cons candidate candidates ih =>
    have hfresh : candidate.id ∉ offered.map Candidate.id := by
      intro hmem
      rw [List.map_append, List.map_cons, List.nodup_append] at hdistinct
      exact hdistinct.2.2 _ hmem _ (by simp) rfl
    have := ih (h.tryAdd hfresh) (by simpa using hdistinct)
    simpa [Evolution.offerAll] using this

/-! ### The reduced mapping is a minimal cover -/

section Reduction

variable {mapping : FrontierMapping} {programs : List String} {dominated : Finset String}

/-- The sets of candidates of a mapping, as a family. -/
def fronts (mapping : FrontierMapping) (front : {front // front ∈ valuesOf mapping}) : Set String :=
  {id | id ∈ front.1}

/-- The programs that are not marked. -/
def unmarked (programs : List String) (dominated : Finset String) : Set String :=
  {p | p ∈ programs ∧ p ∉ dominated}

lemma unmarked_insert :
    unmarked programs (insert y dominated) = unmarked programs dominated \ {y} := by
  ext p
  simp [unmarked, and_assoc, and_comm]

lemma mem_programsOf {id : String} :
    id ∈ programsOf mapping ↔ ∃ front ∈ valuesOf mapping, id ∈ front := by
  have hunion : ∀ (fronts : List (Finset String)) (programs : Finset String),
      id ∈ fronts.foldl (fun programs front => programs ∪ front) programs ↔
        id ∈ programs ∨ ∃ front ∈ fronts, id ∈ front := by
    intro fronts
    induction fronts with
    | nil => simp
    | cons front fronts ih => simp [ih, or_assoc]
  rw [programsOf, hunion]
  simp

/-- Every program of a mapping is in one of its fronts, and every candidate is a program. -/
def ListsPrograms (mapping : FrontierMapping) (programs : List String) : Prop :=
  ∀ id, id ∈ programs ↔ ∃ front ∈ valuesOf mapping, id ∈ front

lemma isDominatedInMapping_iff (hprograms : ListsPrograms mapping programs) (hy : y ∈ programs) :
    isDominatedInMapping y (programs.toFinset.filter fun p => p ≠ y ∧ p ∉ dominated) mapping =
        true ↔
      Redundant (fronts mapping) (unmarked programs dominated) y := by
  have hsome : ((valuesOf mapping).filter fun front => y ∈ front).isEmpty = false := by
    obtain ⟨front, hfront, hmem⟩ := (hprograms y).1 hy
    rw [List.isEmpty_eq_false_iff_exists_mem]
    exact ⟨front, by simp [hfront, hmem]⟩
  simp only [isDominatedInMapping, hsome, Bool.false_eq_true, if_false, List.all_eq_true,
    List.mem_filter, decide_eq_true_eq, Finset.mem_filter, List.mem_toFinset]
  constructor
  · intro h i hi
    obtain ⟨other, hother, hprogram, hne, hkept⟩ := h i.1 ⟨i.2, hi⟩
    exact ⟨other, hother, ⟨hprogram, hkept⟩, hne⟩
  · intro h front hfront
    obtain ⟨other, hother, ⟨hprogram, hkept⟩, hne⟩ := h ⟨front, hfront.1⟩ hfront.2
    exact ⟨other, hother, hprogram, hne, hkept⟩

lemma redundant_of_nextDominated_some (hprograms : ListsPrograms mapping programs)
    (h : nextDominated mapping programs dominated = some y) :
    Redundant (fronts mapping) (unmarked programs dominated) y := by
  rw [← isDominatedInMapping_iff hprograms (nextDominated_some h).1]
  have := List.find?_some h
  simp only [Bool.and_eq_true] at this
  exact this.2

lemma not_redundant_of_nextDominated_none (hprograms : ListsPrograms mapping programs)
    (h : nextDominated mapping programs dominated = none) (hy : y ∈ unmarked programs dominated) :
    ¬ Redundant (fronts mapping) (unmarked programs dominated) y := by
  rw [← isDominatedInMapping_iff hprograms hy.1]
  have := List.find?_eq_none.1 h y hy.1
  simpa [hy.2] using this

/-- Each mark spares a redundant program, and at the end none is redundant. -/
lemma removalLoop_spec (hprograms : ListsPrograms mapping programs)
    (hhits : Hits (fronts mapping) (unmarked programs dominated)) :
    Hits (fronts mapping) (unmarked programs (removalLoop mapping programs dominated)) ∧
      ∀ y ∈ unmarked programs (removalLoop mapping programs dominated),
        ¬ Redundant (fronts mapping)
          (unmarked programs (removalLoop mapping programs dominated)) y := by
  induction dominated using removalLoop.induct mapping programs with
  | case1 dominated hnone =>
    rw [removalLoop, hnone]
    exact ⟨hhits, fun y hy => not_redundant_of_nextDominated_none hprograms hnone hy⟩
  | case2 dominated y hsome ih =>
    rw [removalLoop, hsome]
    apply ih
    rw [unmarked_insert]
    exact hhits.diff_of_redundant (redundant_of_nextDominated_some hprograms hsome)

lemma listsPrograms_ranked (aggregateScores : AggregateScores α) :
    ListsPrograms mapping (rankedPrograms mapping aggregateScores) := by
  intro id
  rw [rankedPrograms, List.mem_mergeSort, Finset.mem_sort, mem_programsOf]

lemma coe_dominators (aggregateScores : AggregateScores α) :
    {id | id ∈ dominators mapping aggregateScores} =
      unmarked (rankedPrograms mapping aggregateScores)
        (removalLoop mapping (rankedPrograms mapping aggregateScores) ∅) := by
  ext id
  simp [dominators, unmarked]

lemma dominators_spec (aggregateScores : AggregateScores α)
    (hfronts : ∀ front ∈ valuesOf mapping, front.Nonempty) :
    Hits (fronts mapping) {id | id ∈ dominators mapping aggregateScores} ∧
      ∀ y ∈ dominators mapping aggregateScores,
        ¬ Redundant (fronts mapping) {id | id ∈ dominators mapping aggregateScores} y := by
  have hlists : ListsPrograms mapping (rankedPrograms mapping aggregateScores) :=
    listsPrograms_ranked aggregateScores
  have hhits : Hits (fronts mapping) (unmarked (rankedPrograms mapping aggregateScores) ∅) := by
    intro front
    obtain ⟨id, hid⟩ := hfronts front.1 front.2
    exact ⟨id, hid, (hlists id).2 ⟨front.1, front.2, hid⟩, by simp⟩
  obtain ⟨hhits, hneeded⟩ := removalLoop_spec hlists hhits
  rw [← coe_dominators] at hhits hneeded
  exact ⟨hhits, hneeded⟩

lemma getElem?_removeDominatedPrograms {aggregateScores : AggregateScores α} {key : String}
    {kept : Finset String} :
    (removeDominatedPrograms mapping aggregateScores)[key]? = some kept ↔
      kept.Nonempty ∧ ∃ front, mapping[key]? = some front ∧
        kept = front.filter (· ∈ dominators mapping aggregateScores) := by
  rw [removeDominatedPrograms, Std.ExtTreeMap.getElem?_filterMap', Option.bind_eq_some_iff]
  constructor
  · rintro ⟨front, hfront, hkept⟩
    simp only [Option.ite_none_right_eq_some, Option.some.injEq] at hkept
    obtain ⟨hne, rfl⟩ := hkept
    exact ⟨hne, front, hfront, rfl⟩
  · rintro ⟨hne, front, hfront, rfl⟩
    exact ⟨front, hfront, if_pos hne⟩

end Reduction

/-- Reducing a mapping leaves every key some of its candidates and no candidate that could be
spared, and the members of a frontier are undominated and account for every candidate offered. -/
theorem frontiers_are_minimal_covers (mapping : FrontierMapping)
    (aggregateScores : AggregateScores α) (candidates : List (Candidate α))
    (hfronts : ∀ (key : String) (front : Finset String),
      mapping[key]? = some front → front.Nonempty)
    (hdistinct : (candidates.map Candidate.id).Nodup) :
    (∀ (key : String) (front : Finset String), mapping[key]? = some front →
      ∃ kept, (removeDominatedPrograms mapping aggregateScores)[key]? = some kept ∧
        kept.Nonempty ∧ kept ⊆ front) ∧
    (∀ (key : String) (kept : Finset String) (id : String),
      (removeDominatedPrograms mapping aggregateScores)[key]? = some kept → id ∈ kept →
        ∃ key' : String, (removeDominatedPrograms mapping aggregateScores)[key']? = some {id}) ∧
    (∀ (i j : String) (a b : Candidate α),
      (offerAll ParetoFrontier.new candidates).members[i]? = some a →
      (offerAll ParetoFrontier.new candidates).members[j]? = some b →
        dominates a.scores b.scores = false) ∧
    (∀ c ∈ candidates, (offerAll ParetoFrontier.new candidates).members[c.id]? = some c ∨
      ∃ (i : String) (m : Candidate α),
        (offerAll ParetoFrontier.new candidates).members[i]? = some m ∧
          dominates m.scores c.scores = true) := by
  have hnonempty : ∀ front ∈ valuesOf mapping, front.Nonempty := by
    intro front hfront
    obtain ⟨key, hkey⟩ := mem_valuesOf.1 hfront
    exact hfronts key front hkey
  obtain ⟨hhits, hneeded⟩ := dominators_spec aggregateScores hnonempty
  have htracks : Tracks (offerAll ParetoFrontier.new candidates) candidates :=
    Tracks.offerAll Tracks.new hdistinct
  refine ⟨?_, ?_, ?_, ?_⟩
  · intro key front hfront
    obtain ⟨id, hid, hkept⟩ := hhits ⟨front, mem_valuesOf.2 ⟨key, hfront⟩⟩
    have hne : (front.filter (· ∈ dominators mapping aggregateScores)).Nonempty :=
      ⟨id, Finset.mem_filter.2 ⟨hid, hkept⟩⟩
    refine ⟨_, getElem?_removeDominatedPrograms.2 ⟨hne, front, hfront, rfl⟩, hne, ?_⟩
    exact Finset.filter_subset _ _
  · intro key kept id hkept hid
    obtain ⟨_, front, hfront, rfl⟩ := getElem?_removeDominatedPrograms.1 hkept
    have hsurvives := (Finset.mem_filter.1 hid).2
    -- the candidate is all that is left of one of the fronts
    obtain ⟨⟨needing, hneeding⟩, honly⟩ :=
      exists_eq_singleton_of_not_redundant hsurvives (hneeded id hsurvives)
    obtain ⟨key', hkey'⟩ := mem_valuesOf.1 hneeding
    refine ⟨key', getElem?_removeDominatedPrograms.2 ⟨by simp, needing, hkey', ?_⟩⟩
    ext other
    have := Set.ext_iff.1 honly other
    simpa [fronts, eq_comm] using this.symm
  · intro i j a b ha hb
    rw [← Bool.not_eq_true]
    exact htracks.skyline.undominated a ⟨i, ha⟩ b ⟨j, hb⟩
  · intro c hc
    rcases htracks.skyline.accounted c hc with ⟨id, hid⟩ | ⟨m, ⟨i, hm⟩, hdom⟩
    · exact .inl ((htracks.keyed id c hid).1 ▸ hid)
    · exact .inr ⟨i, m, hm, hdom⟩

/-- Latency is supported by both candidates, cost by the second alone. -/
def twoFronts : FrontierMapping :=
  ((∅ : FrontierMapping).insert "latency" {"c1", "c2"}).insert "cost" {"c2"}

def twoCandidates : List (Candidate Int) :=
  [⟨"c1", (∅ : BTreeMap Int).insert "latency" 1⟩, ⟨"c2", (∅ : BTreeMap Int).insert "latency" 2⟩]

theorem two_fronts_are_covered :
    (∃ kept, (removeDominatedPrograms twoFronts (∅ : AggregateScores Int))["cost"]? = some kept ∧
      kept.Nonempty ∧ kept ⊆ {"c2"}) ∧
    ∀ c ∈ twoCandidates, (offerAll ParetoFrontier.new twoCandidates).members[c.id]? = some c ∨
      ∃ (i : String) (m : Candidate Int),
        (offerAll ParetoFrontier.new twoCandidates).members[i]? = some m ∧
          dominates m.scores c.scores = true := by
  have hfronts : ∀ (key : String) (front : Finset String),
      twoFronts[key]? = some front → front.Nonempty := by
    intro key front hfront
    simp only [twoFronts, Std.ExtTreeMap.getElem?_insert] at hfront
    split_ifs at hfront
    · cases hfront
      simp
    · cases hfront
      simp
    · simp at hfront
  have hcovers := frontiers_are_minimal_covers twoFronts (∅ : AggregateScores Int) twoCandidates
    hfronts (by decide +kernel)
  exact ⟨hcovers.1 "cost" {"c2"} (by simp [twoFronts]), hcovers.2.2.2⟩

end Temper.Evolution
