import Mathlib
import Temper.Conformance.Check

/-!
# What a passing report certifies

A passing report means that the rows of each entity form a walk of the automaton, up to the rows
whose end the checker does not look at: those of failed actions and of output actions.
-/

namespace Temper.Conformance

open Spec

/-! ### Walks of an automaton -/

/-- The status reported by the last row that reports where it ended. -/
def lastStatus (rows : List TrajectoryRow) : Option String :=
  (rows.filterMap (·.toStatus)).getLast?

/-- The source states of an action include a status. -/
def LegalSource (action : Action) (status : String) : Prop :=
  match legalSources action with
  | .declared states => status ∈ states
  | .anyState => True
  | .unevaluable => False

/-- A successful row that ended in a terminal state. -/
def EndsRun (a : Automaton) (row : TrajectoryRow) : Prop :=
  row.success = true ∧ ∃ t ∈ row.toStatus, t ∈ terminalStates a

/-- A successful row of an action that is not an output goes from a legal source to the target of
the action, or stays where it is when there is none. -/
def TakesStep (action : Action) (row : TrajectoryRow) : Prop :=
  ∃ s, row.fromStatus = some s ∧ LegalSource action s ∧
    row.toStatus = some (action.toState.getD s)

/-- A row that reports where it started and where it ended did not move. -/
def Holds (row : TrajectoryRow) : Prop :=
  ∀ s ∈ row.fromStatus, ∀ t ∈ row.toStatus, t = s

/-- The row failed or is one of an output action. -/
def Unmoving (a : Automaton) (row : TrajectoryRow) : Prop :=
  row.success = false ∨ ∃ action ∈ a.actions, action.name = row.action ∧ action.kind = "output"

/-- The rows of one entity form a walk of the automaton. -/
structure IsWalk (a : Automaton) (rows : List TrajectoryRow) : Prop where
  declared : ∀ row ∈ rows, ∃ action ∈ a.actions, action.name = row.action
  continuous : ∀ pre row post, rows = pre ++ row :: post →
    ∀ s ∈ row.fromStatus, ∀ t ∈ lastStatus pre, s = t
  steps : ∀ row ∈ rows, row.success = true → ∀ action ∈ a.actions, action.name = row.action →
    action.kind ≠ "output" → TakesStep action row
  holds : ∀ row ∈ rows, Unmoving a row → Holds row
  ends : ∀ pre row post, rows = pre ++ row :: post → ∀ b ∈ pre, ¬ EndsRun a b

/-- The rows of an entity that record the actor executing its specification. -/
def entityRows (a : Automaton) (entityId : String) (rows : List TrajectoryRow) :
    List TrajectoryRow :=
  rows.filter fun row =>
    rowDisposition (SpecView.new a) row = .actorExecution ∧ row.entityId = entityId

/-! ### Nothing was found -/

/-- No violation and no row whose source or target was not checked. -/
structure Clean (p : Progress) : Prop where
  violations : p.violations = []
  transitions : p.walk.transitionsUnchecked = 0
  targets : p.walk.targetsUnchecked = 0

section Checks

variable {p : Progress} {index : Nat} {row : TrajectoryRow} {action : Action}
  {kind : ViolationKind} {detail : String} {spec : SpecView}

lemma not_clean_report : ¬ Clean (p.report index kind row detail) := by
  intro h
  simpa [Progress.report] using h.violations

lemma not_clean_countUncheckedTransition : ¬ Clean (countUncheckedTransition p) := by
  intro h
  simpa [countUncheckedTransition] using h.transitions

lemma not_clean_countUncheckedTarget : ¬ Clean (countUncheckedTarget p) := by
  intro h
  simpa [countUncheckedTarget] using h.targets

lemma checkTransition_clean (h : Clean (checkTransition p index row action)) :
    Clean p ∧ ∃ s, row.fromStatus = some s ∧ LegalSource action s := by
  unfold checkTransition at h
  split at h
  next => exact absurd h not_clean_countUncheckedTransition
  next s hs =>
    unfold LegalSource
    split at h
    next hlegal => exact ⟨h, s, hs, by simp [hlegal]⟩
    next => exact absurd h not_clean_countUncheckedTransition
    next states hlegal =>
      split_ifs at h with hmem
      · exact ⟨h, s, hs, by simpa [hlegal] using hmem⟩
      · exact absurd h not_clean_report

lemma checkSource_clean (h : Clean (checkSource spec p index row action)) :
    Clean p ∧ p.walk.terminalAt[row.entityId]? = none ∧
      ∃ s, row.fromStatus = some s ∧ LegalSource action s := by
  unfold checkSource at h
  split at h
  next => exact absurd h not_clean_report
  next hpost =>
    obtain ⟨hclean, hlegal⟩ := checkTransition_clean h
    refine ⟨hclean, ?_, hlegal⟩
    unfold postTerminal at hpost
    split at hpost
    next => cases hpost
    next hnone => exact hnone

lemma checkContinuity_clean (h : Clean (checkContinuity p index row)) :
    Clean p ∧ ∀ s ∈ row.fromStatus, ∀ t ∈ p.walk.lastObservedStatus[row.entityId]?.map Prod.snd,
      s = t := by
  unfold checkContinuity at h
  split at h
  next s i t hs ht =>
    split_ifs at h with heq
    · refine ⟨h, ?_⟩
      simp [hs, ht, heq]
    · exact absurd h not_clean_report
  next hnone =>
    refine ⟨h, ?_⟩
    intro s hs t ht
    obtain ⟨⟨i, t⟩, hget, rfl⟩ := Option.mem_map.mp ht
    exact absurd hget (hnone s i t hs)

lemma checkTargetState_clean (h : Clean (checkTargetState p index row action)) :
    Clean p ∧ (row.success = true → action.kind ≠ "output" →
      ∃ t, row.toStatus = some t ∧ ∀ s, row.fromStatus = some s → t = action.toState.getD s) := by
  unfold checkTargetState at h
  split_ifs at h with hfail hemitted
  · exact ⟨h, fun hsuccess => absurd hfail (by simp [hsuccess])⟩
  · exact ⟨h, fun _ hkind => absurd hemitted (by simpa [isEmittedEvent] using hkind)⟩
  · split at h
    next => exact absurd h not_clean_countUncheckedTarget
    next t ht =>
      split at h
      next => exact absurd h not_clean_countUncheckedTarget
      next expected source hexpected =>
        split_ifs at h with heq
        · refine ⟨h, fun _ _ => ⟨t, ht, fun s hs => ?_⟩⟩
          rw [heq]
          unfold expectedTarget at hexpected
          cases hto : action.toState with
          | some e => simp_all
          | none => simp_all
        · exact absurd h not_clean_report

lemma recordDenial_frame (walk : Walk) (index : Nat) (row : TrajectoryRow) :
    (recordDenial walk index row).transitionsUnchecked = walk.transitionsUnchecked ∧
      (recordDenial walk index row).targetsUnchecked = walk.targetsUnchecked ∧
      (recordDenial walk index row).terminalAt = walk.terminalAt ∧
      (recordDenial walk index row).lastObservedStatus = walk.lastObservedStatus := by
  unfold recordDenial
  split_ifs <;> simp

lemma checkRetry_clean (h : Clean (checkRetry p index row)) : Clean p := by
  have hbefore : ∀ q : Progress,
      Clean { q with walk := recordDenial q.walk index row } → Clean q := by
    intro q hq
    obtain ⟨htransitions, htargets, -⟩ := recordDenial_frame q.walk index row
    exact ⟨hq.violations, htransitions ▸ hq.transitions, htargets ▸ hq.targets⟩
  have hclean := hbefore _ h
  split at hclean
  next => exact hclean
  next =>
    dsimp only at hclean
    split_ifs at hclean
    · exact absurd hclean not_clean_report
    · exact hclean

end Checks

/-! ### What the walk remembers -/

/-- The two maps that the checks of a row do not write. -/
structure Remembers (p q : Progress) : Prop where
  terminalAt : q.walk.terminalAt = p.walk.terminalAt
  lastObservedStatus : q.walk.lastObservedStatus = p.walk.lastObservedStatus

section Frames

variable {index : Nat} {row : TrajectoryRow} {action : Action} {spec : SpecView}

lemma Remembers.refl (p : Progress) : Remembers p p := ⟨rfl, rfl⟩

lemma Remembers.trans {p q r : Progress} (h : Remembers p q) (h' : Remembers q r) :
    Remembers p r :=
  ⟨h'.terminalAt.trans h.terminalAt, h'.lastObservedStatus.trans h.lastObservedStatus⟩

lemma remembers_report (p : Progress) {kind : ViolationKind} {detail : String} :
    Remembers p (p.report index kind row detail) := ⟨rfl, rfl⟩

lemma remembers_checkTransition (p : Progress) :
    Remembers p (checkTransition p index row action) := by
  unfold checkTransition
  split
  · exact ⟨rfl, rfl⟩
  · split
    · exact .refl p
    · exact ⟨rfl, rfl⟩
    · split_ifs
      · exact .refl p
      · exact remembers_report p

lemma remembers_checkSource (p : Progress) :
    Remembers p (checkSource spec p index row action) := by
  unfold checkSource
  split
  · exact remembers_report p
  · exact remembers_checkTransition p

lemma remembers_checkContinuity (p : Progress) : Remembers p (checkContinuity p index row) := by
  unfold checkContinuity
  split
  · split_ifs
    · exact .refl p
    · exact remembers_report p
  · exact .refl p

lemma remembers_checkTargetState (p : Progress) :
    Remembers p (checkTargetState p index row action) := by
  unfold checkTargetState
  split_ifs
  · exact .refl p
  · exact .refl p
  · split
    · exact ⟨rfl, rfl⟩
    · split
      · exact ⟨rfl, rfl⟩
      · split_ifs
        · exact .refl p
        · exact remembers_report p

lemma remembers_checkRetry (p : Progress) : Remembers p (checkRetry p index row) := by
  have hdenial : ∀ q : Progress,
      Remembers q { q with walk := recordDenial q.walk index row } := by
    intro q
    obtain ⟨-, -, hterminal, hobserved⟩ := recordDenial_frame q.walk index row
    exact ⟨hterminal, hobserved⟩
  unfold checkRetry
  refine Remembers.trans ?_ (hdenial _)
  split
  · exact .refl p
  · dsimp only
    split_ifs
    · exact remembers_report p
    · exact .refl p

lemma remembers_checkDeclared (p : Progress) :
    Remembers p (checkDeclared spec p index row action) :=
  ((remembers_checkSource p).trans (remembers_checkContinuity _)).trans
    ((remembers_checkTargetState _).trans (remembers_checkRetry _))

end Frames

/-- What a row that raises nothing satisfies, given the statuses reported before it. -/
structure RowAgrees (a : Automaton) (before : List TrajectoryRow) (row : TrajectoryRow) :
    Prop where
  declared : ∃ action ∈ a.actions, action.name = row.action
  continuous : ∀ s ∈ row.fromStatus, ∀ t ∈ lastStatus before, s = t
  steps : row.success = true → ∀ action ∈ a.actions, action.name = row.action →
    action.kind ≠ "output" → TakesStep action row
  ends : ∀ b ∈ before, ¬ EndsRun a b

section Declared

variable {a : Automaton} (hnames : (a.actions.map (·.name)).Nodup)

include hnames

lemma declared_eq_some_iff {name : String} {action : Action} :
    (SpecView.new a).declared[name]? = some action ↔ action ∈ a.actions ∧ action.name = name := by
  have hnodup : ((a.actions.map fun x => (x.name, x)).reverse.map Prod.fst).Nodup := by
    rw [List.map_reverse, List.nodup_reverse, List.map_map]
    exact hnames
  have hget : (SpecView.new a).declared[name]? =
      IndexMap.get (a.actions.map fun x => (x.name, x)).reverse name := by
    rw [SpecView.new, BTreeMap.getElem?_foldl_insert]
    simp
  rw [hget]
  constructor
  · intro h
    have hmem := IndexMap.mem_of_get h
    simp only [List.mem_reverse, List.mem_map, Prod.mk.injEq] at hmem
    obtain ⟨x, hx, hname, rfl⟩ := hmem
    exact ⟨hx, hname⟩
  · rintro ⟨hmem, rfl⟩
    apply IndexMap.get_of_mem_of_nodup hnodup
    simpa using hmem

end Declared

/-- The maps of the walk after some rows. -/
structure Tracks (a : Automaton) (walk : Walk) (done : List TrajectoryRow) : Prop where
  observed : ∀ id, walk.lastObservedStatus[id]?.map Prod.snd = lastStatus (entityRows a id done)
  terminal : ∀ id, id ∈ walk.terminalAt ↔ ∃ b ∈ entityRows a id done, EndsRun a b

lemma Tracks.of_remembers {a : Automaton} {p q : Progress} {done : List TrajectoryRow}
    (h : Tracks a p.walk done) (hpq : Remembers p q) : Tracks a q.walk done := by
  constructor
  · rw [hpq.lastObservedStatus]
    exact h.observed
  · rw [hpq.terminalAt]
    exact h.terminal

lemma tracks_nil (a : Automaton) : Tracks a {} [] := by
  constructor <;> intro id <;> simp [entityRows, lastStatus]

lemma lastStatus_append (rows : List TrajectoryRow) (row : TrajectoryRow) :
    lastStatus (rows ++ [row]) = row.toStatus.or (lastStatus rows) := by
  unfold lastStatus
  cases h : row.toStatus with
  | none => simp [h]
  | some t => simp [h]

lemma entityRows_append_actor {a : Automaton} {done : List TrajectoryRow} {row : TrajectoryRow}
    (hrow : rowDisposition (SpecView.new a) row = .actorExecution) (id : String) :
    entityRows a id (done ++ [row]) =
      if row.entityId = id then entityRows a id done ++ [row] else entityRows a id done := by
  unfold entityRows
  split_ifs with h <;> simp [h, hrow]

lemma entityRows_append_other {a : Automaton} {done : List TrajectoryRow} {row : TrajectoryRow}
    (hrow : rowDisposition (SpecView.new a) row ≠ .actorExecution) (id : String) :
    entityRows a id (done ++ [row]) = entityRows a id done := by
  simp [entityRows, hrow]

section Record

variable (spec : SpecView) (walk : Walk) (index : Nat) (row : TrajectoryRow)

lemma recordChange_observed (toStatus : String) :
    (recordChange spec walk index row toStatus).lastObservedStatus = walk.lastObservedStatus := by
  unfold recordChange
  split_ifs <;> rfl

lemma recordStateProgress_observed :
    (recordStateProgress spec walk index row).lastObservedStatus =
      (recordObservation walk index row).lastObservedStatus := by
  unfold recordStateProgress
  split_ifs
  · rfl
  · cases row.toStatus with
    | none => rfl
    | some t => exact recordChange_observed spec _ index row t

lemma recordObservation_observed (id : String) :
    (recordObservation walk index row).lastObservedStatus[id]?.map Prod.snd =
      if row.entityId = id then row.toStatus.or (walk.lastObservedStatus[id]?.map Prod.snd)
      else walk.lastObservedStatus[id]?.map Prod.snd := by
  unfold recordObservation
  cases row.toStatus with
  | none => simp
  | some t =>
    rw [Std.ExtTreeMap.getElem?_insert]
    by_cases h : row.entityId = id <;> simp [h]

lemma recordObservation_terminal :
    (recordObservation walk index row).terminalAt = walk.terminalAt := by
  unfold recordObservation
  cases row.toStatus <;> rfl

lemma recordChange_terminal (toStatus id : String) :
    id ∈ (recordChange spec walk index row toStatus).terminalAt ↔
      id ∈ walk.terminalAt ∨ row.entityId = id ∧ toStatus ∈ spec.terminalStates := by
  unfold recordChange
  split_ifs with hsame hmem hmem <;>
    simp [Std.ExtTreeMap.mem_insertIfNew, hmem, or_comm]

lemma recordStateProgress_terminal (id : String) :
    id ∈ (recordStateProgress spec walk index row).terminalAt ↔
      id ∈ walk.terminalAt ∨ row.entityId = id ∧ row.success = true ∧
        ∃ t ∈ row.toStatus, t ∈ spec.terminalStates := by
  unfold recordStateProgress
  cases row.success with
  | false => simp [recordObservation_terminal]
  | true =>
    cases row.toStatus with
    | none => simp [recordObservation_terminal]
    | some t => simp [recordChange_terminal, recordObservation_terminal]

lemma recordChange_counters (toStatus : String) :
    (recordChange spec walk index row toStatus).transitionsUnchecked = walk.transitionsUnchecked ∧
      (recordChange spec walk index row toStatus).targetsUnchecked = walk.targetsUnchecked := by
  unfold recordChange
  split_ifs <;> exact ⟨rfl, rfl⟩

lemma recordStateProgress_counters :
    (recordStateProgress spec walk index row).transitionsUnchecked = walk.transitionsUnchecked ∧
      (recordStateProgress spec walk index row).targetsUnchecked = walk.targetsUnchecked := by
  unfold recordStateProgress recordObservation
  cases row.toStatus with
  | none => simp
  | some t =>
    split_ifs
    · exact ⟨rfl, rfl⟩
    · exact recordChange_counters spec _ index row t

end Record

/-- An actor row is recorded under its entity. -/
lemma Tracks.record {a : Automaton} {walk : Walk} {done : List TrajectoryRow}
    (h : Tracks a walk done) {row : TrajectoryRow} {index : Nat}
    (hrow : rowDisposition (SpecView.new a) row = .actorExecution) :
    Tracks a (recordStateProgress (SpecView.new a) walk index row) (done ++ [row]) := by
  constructor
  · intro id
    rw [recordStateProgress_observed, recordObservation_observed, entityRows_append_actor hrow,
      h.observed]
    split_ifs
    · rw [lastStatus_append]
    · rfl
  · intro id
    rw [recordStateProgress_terminal, entityRows_append_actor hrow, h.terminal]
    split_ifs with hid
    · simp [hid, EndsRun, SpecView.new, or_and_right, exists_or]
    · simp [hid]

/-! ### The rows of a clean walk -/

section Rows

variable {a : Automaton} (hnames : (a.actions.map (·.name)).Nodup) {p : Progress}
  {done : List TrajectoryRow} {index : Nat} {row : TrajectoryRow}

lemma checkDeclared_clean {action : Action}
    (h : Clean (checkDeclared (SpecView.new a) p index row action)) :
    Clean p ∧ row.entityId ∉ p.walk.terminalAt ∧
      (∀ s ∈ row.fromStatus, ∀ t ∈ p.walk.lastObservedStatus[row.entityId]?.map Prod.snd, s = t) ∧
      (row.success = true → action.kind ≠ "output" → TakesStep action row) := by
  obtain ⟨hclean, htarget⟩ := checkTargetState_clean (checkRetry_clean h)
  obtain ⟨hclean, hcontinuous⟩ := checkContinuity_clean hclean
  obtain ⟨hclean, hterminal, s, hs, hlegal⟩ := checkSource_clean hclean
  rw [(remembers_checkSource p).lastObservedStatus] at hcontinuous
  refine ⟨hclean, by simpa using hterminal, hcontinuous, fun hsuccess hkind => ?_⟩
  obtain ⟨t, ht, heq⟩ := htarget hsuccess hkind
  exact ⟨s, hs, hlegal, by rw [ht, heq s hs]⟩

include hnames

lemma checkActorRow_clean (htracks : Tracks a p.walk done)
    (h : Clean (checkActorRow (SpecView.new a) p index row)) :
    Clean p ∧ RowAgrees a (entityRows a row.entityId done) row := by
  have hbefore : ∀ q : Progress,
      Clean { q with walk := recordStateProgress (SpecView.new a) q.walk index row } → Clean q := by
    intro q hq
    obtain ⟨htransitions, htargets⟩ :=
      recordStateProgress_counters (SpecView.new a) q.walk index row
    exact ⟨hq.violations, htransitions ▸ hq.transitions, htargets ▸ hq.targets⟩
  have hclean := hbefore _ h
  split at hclean
  next => exact absurd hclean not_clean_report
  next action haction =>
    obtain ⟨hmem, hname⟩ := (declared_eq_some_iff hnames).mp haction
    obtain ⟨hp, hterminal, hcontinuous, hstep⟩ := checkDeclared_clean hclean
    refine ⟨⟨hp.violations, hp.transitions, hp.targets⟩, ⟨action, hmem, hname⟩, ?_, ?_, ?_⟩
    · rw [← htracks.observed]
      exact hcontinuous
    · intro hsuccess action' hmem' hname' hkind
      have hsame := (declared_eq_some_iff hnames).mpr ⟨hmem', hname'⟩
      obtain rfl : action = action' := by
        rw [haction] at hsame
        exact Option.some.inj hsame
      exact hstep hsuccess hkind
    · intro b hb hends
      exact hterminal ((htracks.terminal _).mpr ⟨b, hb, hends⟩)

omit hnames in
lemma Tracks.checkActorRow (htracks : Tracks a p.walk done)
    (hrow : rowDisposition (SpecView.new a) row = .actorExecution) :
    Tracks a (checkActorRow (SpecView.new a) p index row).walk (done ++ [row]) := by
  let counted : Progress :=
    { p with walk := { p.walk with actorRows := p.walk.actorRows + 1 } }
  have hcounted : Remembers p counted := ⟨rfl, rfl⟩
  unfold Conformance.checkActorRow
  apply Tracks.record _ hrow
  apply Tracks.of_remembers htracks
  split
  · exact hcounted.trans (remembers_report counted)
  · exact hcounted.trans (remembers_checkDeclared counted)

omit hnames in
lemma Tracks.other (htracks : Tracks a p.walk done) {walk : Walk}
    (hterminal : walk.terminalAt = p.walk.terminalAt)
    (hobserved : walk.lastObservedStatus = p.walk.lastObservedStatus)
    (hrow : rowDisposition (SpecView.new a) row ≠ .actorExecution) :
    Tracks a walk (done ++ [row]) := by
  constructor <;> intro id <;> rw [entityRows_append_other hrow]
  · rw [hobserved, htracks.observed]
  · rw [hterminal, htracks.terminal]

omit hnames in
lemma Tracks.checkRow (htracks : Tracks a p.walk done) :
    Tracks a (checkRow (SpecView.new a) p index row).walk (done ++ [row]) := by
  unfold Conformance.checkRow
  split
  next h => exact htracks.other rfl rfl (by simp [h])
  next h => exact htracks.other rfl rfl (by simp [h])
  next h => exact htracks.other rfl rfl (by simp [h])
  next h => exact htracks.other rfl rfl (by simp [h])
  next h => exact htracks.checkActorRow h

lemma checkRow_clean (htracks : Tracks a p.walk done)
    (h : Clean (checkRow (SpecView.new a) p index row)) :
    Clean p ∧ (rowDisposition (SpecView.new a) row = .actorExecution →
      RowAgrees a (entityRows a row.entityId done) row) := by
  unfold Conformance.checkRow at h
  split at h
  next hrow => exact ⟨⟨h.violations, h.transitions, h.targets⟩, by simp [hrow]⟩
  next hrow => exact ⟨⟨h.violations, h.transitions, h.targets⟩, by simp [hrow]⟩
  next hrow => exact ⟨⟨h.violations, h.transitions, h.targets⟩, by simp [hrow]⟩
  next hrow => exact ⟨⟨h.violations, h.transitions, h.targets⟩, by simp [hrow]⟩
  next hrow =>
    obtain ⟨hclean, hagrees⟩ := checkActorRow_clean hnames htracks h
    exact ⟨hclean, fun _ => hagrees⟩

/-- Every row of a clean walk agrees with the rows before it. -/
theorem checkRows_clean {rows : List TrajectoryRow} (htracks : Tracks a p.walk done)
    (h : Clean (checkRows (SpecView.new a) index rows p)) :
    Clean p ∧ ∀ pre row post, rows = pre ++ row :: post →
      rowDisposition (SpecView.new a) row = .actorExecution →
        RowAgrees a (entityRows a row.entityId (done ++ pre)) row := by
  induction rows generalizing index p done with
  | nil => exact ⟨h, by simp⟩
  | cons first rest ih =>
    obtain ⟨hclean, hrest⟩ := ih htracks.checkRow h
    obtain ⟨hp, hfirst⟩ := checkRow_clean hnames htracks hclean
    refine ⟨hp, fun pre row post hsplit hrow => ?_⟩
    cases pre with
    | nil =>
      obtain ⟨rfl, -⟩ := List.cons.inj hsplit
      rw [List.append_nil]
      exact hfirst hrow
    | cons b pre =>
      rw [List.cons_append, List.cons.injEq] at hsplit
      obtain ⟨rfl, hsplit⟩ := hsplit
      have hagrees := hrest pre row post hsplit hrow
      rwa [List.append_assoc, List.singleton_append] at hagrees

end Rows

/-! ### From the verdict to the walk -/

/-- The decisions can only add violations. -/
structure Adds (d d' : DecisionProgress) : Prop where
  violations : d'.violations = [] → d.violations = []
  transitions : d'.stats.transitionsUnchecked = d.stats.transitionsUnchecked
  targets : d'.stats.targetsUnchecked = d.stats.targetsUnchecked

lemma Adds.refl (d : DecisionProgress) : Adds d d := ⟨id, rfl, rfl⟩

lemma Adds.trans {d e f : DecisionProgress} (h : Adds d e) (h' : Adds e f) : Adds d f :=
  ⟨fun hf => h.violations (h'.violations hf), h'.transitions.trans h.transitions,
    h'.targets.trans h.targets⟩

lemma Adds.foldl {α : Type} {f : DecisionProgress → α → DecisionProgress}
    (hf : ∀ d x, Adds d (f d x)) (xs : List α) (d : DecisionProgress) : Adds d (xs.foldl f d) := by
  induction xs generalizing d with
  | nil => exact .refl d
  | cons x xs ih => exact (hf d x).trans (ih _)

lemma adds_checkDecisionAction (spec : SpecView) (recorded : List String) (d : DecisionProgress)
    (action : String) : Adds d (checkDecisionAction spec recorded d action) := by
  unfold checkDecisionAction
  split_ifs
  · exact .refl d
  · exact ⟨id, rfl, rfl⟩
  · exact ⟨fun h => by simp at h, rfl, rfl⟩

lemma adds_checkDecision (spec : SpecView) (recorded : List String) (d : DecisionProgress)
    (decision : OtsDecision) : Adds d (checkDecision spec recorded d decision) := by
  unfold checkDecision
  split
  · exact ⟨id, rfl, rfl⟩
  · exact ⟨id, rfl, rfl⟩
  · exact Adds.foldl (adds_checkDecisionAction spec recorded) _ d

lemma adds_checkTrajectory (spec : SpecView) (trajectory : Option (List OtsDecision))
    (rows : List TrajectoryRow) (stats : ConformanceStats) (violations : List Violation) :
    Adds ⟨rows.length, stats, violations⟩
      (checkTrajectory spec trajectory rows stats violations) := by
  cases trajectory with
  | none => exact .refl _
  | some decisions =>
    have h := Adds.foldl (adds_checkDecision spec
      ((rows.filter (rowDisposition spec · = .actorExecution)).map (·.action))) decisions
      ⟨rows.length, stats, violations⟩
    exact ⟨h.violations, h.transitions, h.targets⟩

lemma new_pass {violations : List Violation} {gaps : List String} {resolution : SpecResolution}
    {stats : ConformanceStats}
    (h : (ConformanceReport.new violations gaps resolution stats).verdict = .pass) :
    violations = [] ∧ gaps = [] := by
  unfold ConformanceReport.new at h
  dsimp only at h
  split_ifs at h with hviolations hgaps
  exact ⟨by simpa using hviolations, by simpa using hgaps⟩

lemma evidenceGaps_nil {stats : ConformanceStats} {context : EvidenceContext}
    (h : evidenceGaps stats context = []) :
    stats.transitionsUnchecked = 0 ∧ stats.targetsUnchecked = 0 := by
  simp only [evidenceGaps, List.append_eq_nil_iff] at h
  obtain ⟨⟨-, htransitions⟩, htargets⟩ := h
  constructor
  · by_contra hne
    rw [if_pos (Nat.pos_of_ne_zero hne)] at htransitions
    cases htransitions
  · by_contra hne
    rw [if_pos (Nat.pos_of_ne_zero hne)] at htargets
    cases htargets

theorem clean_of_pass {input : ConformanceInput}
    (h : (checkConformance input).verdict = .pass) :
    Clean (checkRows (SpecView.new input.automaton) 0 input.kernelRows {}) := by
  obtain ⟨hviolations, hgaps⟩ := new_pass h
  obtain ⟨htransitions, htargets⟩ := evidenceGaps_nil hgaps
  let p := checkRows (SpecView.new input.automaton) 0 input.kernelRows {}
  have hadds := adds_checkTrajectory (SpecView.new input.automaton) input.otsTrajectory
    input.kernelRows (p.walk.intoStats input.kernelRows.length) p.violations
  exact ⟨hadds.violations hviolations, hadds.transitions.symm.trans htransitions,
    hadds.targets.symm.trans htargets⟩

/-- The rows of an entity before one of them. -/
lemma exists_split {a : Automaton} {id : String} {rows pre post : List TrajectoryRow}
    {row : TrajectoryRow} (h : entityRows a id rows = pre ++ row :: post) :
    ∃ before after, rows = before ++ row :: after ∧ entityRows a id before = pre ∧
      rowDisposition (SpecView.new a) row = .actorExecution ∧ row.entityId = id := by
  obtain ⟨before, rest, rfl, hbefore, hrest⟩ := List.filter_eq_append_iff.mp h
  obtain ⟨skipped, after, rfl, hskipped, hrow, -⟩ := List.filter_eq_cons_iff.mp hrest
  refine ⟨before ++ skipped, after, by simp, ?_, by simpa using hrow⟩
  have hnone : entityRows a id skipped = [] := List.filter_eq_nil_iff.mpr hskipped
  rw [entityRows, List.filter_append, hbefore]
  rw [entityRows] at hnone
  rw [hnone, List.append_nil]

section Certificate

variable {input : ConformanceInput} (hnames : (input.automaton.actions.map (·.name)).Nodup)
  (hpass : (checkConformance input).verdict = .pass)

include hnames hpass

lemma rowAgrees_of_pass {id : String} {pre post : List TrajectoryRow} {row : TrajectoryRow}
    (h : entityRows input.automaton id input.kernelRows = pre ++ row :: post) :
    RowAgrees input.automaton pre row := by
  obtain ⟨before, after, hrows, hbefore, hactor, rfl⟩ := exists_split h
  have hagrees := (checkRows_clean hnames (tracks_nil input.automaton) (clean_of_pass hpass)).2
    before row after hrows hactor
  rwa [List.nil_append, hbefore] at hagrees

/-- A passing report certifies a walk of the automaton for every entity exactly when no row of a
failed action or of an output action reports that it ended where it did not start. -/
theorem pass_certifies_walk_iff (id : String) :
    IsWalk input.automaton (entityRows input.automaton id input.kernelRows) ↔
      ∀ row ∈ entityRows input.automaton id input.kernelRows,
        Unmoving input.automaton row → Holds row := by
  constructor
  · intro hwalk
    exact hwalk.holds
  · intro hholds
    have hagrees : ∀ row ∈ entityRows input.automaton id input.kernelRows, ∃ pre,
        RowAgrees input.automaton pre row := by
      intro row hrow
      obtain ⟨pre, post, hsplit⟩ := List.append_of_mem hrow
      exact ⟨pre, rowAgrees_of_pass hnames hpass hsplit⟩
    refine ⟨?_, ?_, ?_, hholds, ?_⟩
    · intro row hrow
      obtain ⟨pre, h⟩ := hagrees row hrow
      exact h.declared
    · intro pre row post hsplit
      exact (rowAgrees_of_pass hnames hpass hsplit).continuous
    · intro row hrow
      obtain ⟨pre, h⟩ := hagrees row hrow
      exact h.steps
    · intro pre row post hsplit
      exact (rowAgrees_of_pass hnames hpass hsplit).ends

end Certificate

/-! ### Orders -/

def orderAutomaton : Automaton where
  automaton := ⟨"Order", ["Draft", "Submitted", "Shipped"], "Draft"⟩
  actions :=
    [ { name := "Submit", fromStates := ["Draft"], toState := some "Submitted" },
      { name := "Ship", fromStates := ["Submitted"], toState := some "Shipped" } ]

def orderRow (action : String) (success : Bool) (fromStatus toStatus : String) : TrajectoryRow where
  entityType := "Order"
  entityId := "order-1"
  action := action
  success := success
  fromStatus := some fromStatus
  toStatus := some toStatus

/-- A complete session of orders. -/
def orderSession (rows : List TrajectoryRow) : ConformanceInput where
  automaton := orderAutomaton
  kernelRows := rows
  otsTrajectory := none
  rowsTruncated := false
  specResolution := .pinned
  captureDegraded := false

def shippedRows : List TrajectoryRow :=
  [orderRow "Submit" true "Draft" "Submitted", orderRow "Ship" true "Submitted" "Shipped"]

lemma shipped_pass : (checkConformance (orderSession shippedRows)).verdict = .pass := by
  decide +kernel

/-- An order that is submitted and shipped passes and is a walk. -/
theorem shipped_order_certified :
    (checkConformance (orderSession shippedRows)).verdict = .pass ∧
      IsWalk orderAutomaton (entityRows orderAutomaton "order-1" shippedRows) := by
  have hnames : (orderAutomaton.actions.map (·.name)).Nodup := by decide +kernel
  refine ⟨shipped_pass, (pass_certifies_walk_iff hnames shipped_pass "order-1").mpr ?_⟩
  rintro row hrow (hfailed | ⟨action, haction, -, hkind⟩)
  · have hmem : row ∈ shippedRows := List.mem_of_mem_filter hrow
    have hall : ∀ r ∈ shippedRows, r.success = true := by decide
    rw [hall row hmem] at hfailed
    cases hfailed
  · have hall : ∀ x ∈ orderAutomaton.actions, x.kind ≠ "output" := by decide +kernel
    exact absurd hkind (hall action haction)

/-- The submission failed but moved the order. -/
def movedRows : List TrajectoryRow :=
  [orderRow "Submit" false "Draft" "Submitted", orderRow "Ship" true "Submitted" "Shipped"]

theorem failed_submission_passes :
    (checkConformance (orderSession movedRows)).verdict = .pass ∧
      (orderAutomaton.actions.map (·.name)).Nodup ∧
      ¬ IsWalk orderAutomaton (entityRows orderAutomaton "order-1" movedRows) := by
  refine ⟨by decide +kernel, by decide +kernel, fun hwalk => ?_⟩
  have hmem : orderRow "Submit" false "Draft" "Submitted" ∈
      entityRows orderAutomaton "order-1" movedRows := by decide +kernel
  have hholds := hwalk.holds _ hmem (.inl rfl) "Draft" rfl "Submitted" rfl
  simp at hholds

end Temper.Conformance
