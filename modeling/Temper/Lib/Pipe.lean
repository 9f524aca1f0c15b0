import Mathlib

/-!
# Pipes of chunks

A pipe is a queue of chunks that are read in pieces of bounded size: what is left of a chunk waits
for the next reading. A reading that finds nothing is empty when the pipe is closed and has to wait
otherwise. No element is lost, doubled or moved; but an empty chunk is read as an empty piece too,
so the first empty piece marks the end only if nothing was written behind an empty chunk.
-/

namespace Pipe

variable {α : Type*}

structure State (α : Type*) where
  /-- What is left of a chunk that was read in part. -/
  pending : Option (List α)
  queue : List (List α)
  closed : Bool

inductive Event (α : Type*)
  | wrote (chunk : List α)
  | got (limit : Nat) (piece : List α)
  | closed

def empty : State α := ⟨none, [], false⟩

/-- Hand out the front of a chunk and keep what is left of it, if anything. -/
def split (p : State α) (chunk : List α) (limit : Nat) : State α × List α :=
  if chunk.length > limit then ({ p with pending := some (chunk.drop limit) }, chunk.take limit)
  else ({ p with pending := none }, chunk)

/-- A reading; none where it has to wait. -/
def read (p : State α) (limit : Nat) : Option (State α × List α) :=
  match p.pending with
  | some chunk => some (split p chunk limit)
  | none =>
    match p.queue with
    | chunk :: queue => some (split { p with queue } chunk limit)
    | [] => if p.closed then some (p, []) else none

inductive Step : State α → Event α → State α → Prop
  | wrote {p : State α} (chunk : List α) (h : p.closed = false) :
      Step p (.wrote chunk) { p with queue := p.queue ++ [chunk] }
  | got {p p' : State α} {limit : Nat} {piece : List α} (hpos : 0 < limit)
      (h : read p limit = some (p', piece)) : Step p (.got limit piece) p'
  | closed {p : State α} : Step p .closed { p with closed := true }

inductive Run : State α → List (Event α) → State α → Prop
  | nil (p : State α) : Run p [] p
  | cons {p p' p'' : State α} {e : Event α} {es : List (Event α)} (h : Step p e p')
      (hrest : Run p' es p'') : Run p (e :: es) p''

/-- The chunk an event writes, and the piece it reads. -/
def Event.chunk? : Event α → Option (List α)
  | .wrote chunk => some chunk
  | _ => none

def Event.piece? : Event α → Option (List α)
  | .got _ piece => some piece
  | _ => none

/-- Chunks and pieces of a run, the first first. -/
def written (es : List (Event α)) : List (List α) := es.filterMap Event.chunk?

def pieces (es : List (Event α)) : List (List α) := es.filterMap Event.piece?

@[simp] lemma written_nil : written ([] : List (Event α)) = [] := rfl
@[simp] lemma pieces_nil : pieces ([] : List (Event α)) = [] := rfl

@[simp] lemma written_append (es es' : List (Event α)) :
    written (es ++ es') = written es ++ written es' := List.filterMap_append

@[simp] lemma pieces_append (es es' : List (Event α)) :
    pieces (es ++ es') = pieces es ++ pieces es' := List.filterMap_append

@[simp] lemma written_wrote (chunk : List α) : written [.wrote chunk] = [chunk] := rfl
@[simp] lemma written_got (limit : Nat) (piece : List α) : written [.got limit piece] = [] := rfl
@[simp] lemma written_closed : written [(.closed : Event α)] = [] := rfl
@[simp] lemma pieces_wrote (chunk : List α) : pieces [.wrote chunk] = [] := rfl
@[simp] lemma pieces_got (limit : Nat) (piece : List α) : pieces [.got limit piece] = [piece] := rfl
@[simp] lemma pieces_closed : pieces [(.closed : Event α)] = [] := rfl

/-- Nothing is written behind an empty chunk. -/
def EmptyLast (chunks : List (List α)) : Prop := chunks.Pairwise fun c d => c = [] → d = []

instance [DecidableEq α] (chunks : List (List α)) : Decidable (EmptyLast chunks) :=
  inferInstanceAs (Decidable (List.Pairwise _ _))

lemma emptyLast_of_not_mem {chunks : List (List α)} (h : [] ∉ chunks) : EmptyLast chunks :=
  List.pairwise_of_forall_mem_list fun _ hc _ _ hnil => absurd (hnil ▸ hc) h

lemma emptyLast_append_nil_cons {front back : List (List α)} (h : [] ∉ front) :
    EmptyLast (front ++ [] :: back) ↔ back.flatten = [] := by
  rw [List.flatten_eq_nil_iff, EmptyLast, List.pairwise_append, List.pairwise_cons]
  constructor
  · rintro ⟨-, ⟨hback, -⟩, -⟩ c hc
    exact hback c hc rfl
  · intro hback
    refine ⟨emptyLast_of_not_mem h, ⟨fun c hc _ => hback c hc, ?_⟩, fun c hc _ _ hnil => ?_⟩
    · exact List.pairwise_of_forall_mem_list fun _ _ d hd _ => hback d hd
    · exact absurd (hnil ▸ hc) h

/-! ### One reading -/

section Read

variable {p p' : State α} {limit : Nat} {chunk piece : List α}

/-- What is left of a chunk is never empty. -/
def State.Proper (p : State α) : Prop := ∀ chunk, p.pending = some chunk → chunk ≠ []

lemma split_spec (p : State α) (chunk : List α) (limit : Nat) (hpos : 0 < limit) :
    (split p chunk limit).2 ++ (split p chunk limit).1.pending.getD [] = chunk ∧
    (split p chunk limit).2.length ≤ limit ∧ (split p chunk limit).1.Proper ∧
    ((split p chunk limit).2 = [] ↔ chunk = []) ∧
    (split p chunk limit).1.queue = p.queue ∧ (split p chunk limit).1.closed = p.closed := by
  unfold split
  split_ifs with hlong
  · refine ⟨List.take_append_drop limit chunk, by simp, ?_, ?_, rfl, rfl⟩
    · rintro _ ⟨⟩
      rw [Ne, List.drop_eq_nil_iff]
      omega
    · have hne : chunk ≠ [] := by
        rintro rfl
        simp at hlong
      rw [List.take_eq_nil_iff]
      simp [hne, hpos.ne']
  · refine ⟨by simp, by simpa using hlong, ?_, Iff.rfl, rfl, rfl⟩
    rintro _ ⟨⟩

/-- What a reading does: it goes on with a chunk that was begun, begins the first of the queue, or
sees the end. -/
lemma read_cases (hp : p.Proper) (hpos : 0 < limit) (h : read p limit = some (p', piece)) :
    piece.length ≤ limit ∧ p'.Proper ∧ p'.closed = p.closed ∧
    ((∃ chunk, p.pending = some chunk ∧ piece ≠ [] ∧ p'.queue = p.queue ∧
        piece ++ p'.pending.getD [] = chunk) ∨
      (∃ chunk, p.pending = none ∧ p.queue = chunk :: p'.queue ∧
        piece ++ p'.pending.getD [] = chunk ∧ (piece = [] ↔ chunk = [])) ∨
      (p.pending = none ∧ p.queue = [] ∧ p.closed = true ∧ piece = [] ∧ p' = p)) := by
  unfold read at h
  cases hpending : p.pending with
  | some chunk =>
    rw [hpending] at h
    obtain ⟨hparts, hlimit, hproper, hempty, hqueue, hclosed⟩ := split_spec p chunk limit hpos
    obtain ⟨rfl, rfl⟩ := Prod.mk.inj (Option.some.inj h)
    refine ⟨hlimit, hproper, hclosed, .inl ⟨chunk, rfl, ?_, hqueue, hparts⟩⟩
    exact fun hnil => hp chunk hpending (hempty.mp hnil)
  | none =>
    rw [hpending] at h
    cases hqueued : p.queue with
    | cons chunk queue =>
      rw [hqueued] at h
      obtain ⟨hparts, hlimit, hproper, hempty, hqueue, hclosed⟩ :=
        split_spec ⟨none, queue, p.closed⟩ chunk limit hpos
      obtain ⟨rfl, rfl⟩ := Prod.mk.inj (Option.some.inj h)
      refine ⟨hlimit, hproper, hclosed, .inr (.inl ⟨chunk, rfl, ?_, hparts, hempty⟩)⟩
      exact congrArg (chunk :: ·) hqueue.symm
    | nil =>
      rw [hqueued] at h
      cases hclosed : p.closed with
      | false => simp [hclosed] at h
      | true =>
        simp only [hclosed, if_true, Option.some.injEq, Prod.mk.injEq] at h
        obtain ⟨rfl, rfl⟩ := h
        exact ⟨Nat.zero_le _, hp, hclosed, .inr (.inr ⟨rfl, rfl, rfl, rfl, rfl⟩)⟩

/-- How much is to be read yet, a chunk of the queue counting one more. -/
def State.toRead (p : State α) : Nat :=
  (p.pending.getD []).length + (p.queue.map fun chunk => chunk.length + 1).sum

/-- A reading of a closed pipe does not wait, and comes closer to the end. -/
lemma read_of_closed (hp : p.Proper) (hclosed : p.closed = true) (hpos : 0 < limit) :
    ∃ p' piece, read p limit = some (p', piece) ∧ p'.Proper ∧ p'.closed = true ∧
      (piece ≠ [] → p'.toRead < p.toRead) := by
  obtain ⟨⟨p', piece⟩, hread⟩ : ∃ result, read p limit = some result := by
    unfold read
    cases p.pending with
    | some chunk => exact ⟨_, rfl⟩
    | none =>
      cases p.queue with
      | cons chunk queue => exact ⟨_, rfl⟩
      | nil => exact ⟨_, if_pos hclosed⟩
  obtain ⟨-, hproper, hsame, hcases⟩ := read_cases hp hpos hread
  refine ⟨p', piece, hread, hproper, hsame.trans hclosed, fun hne => ?_⟩
  have hlength := List.length_pos_iff.mpr hne
  obtain ⟨chunk, hpending, -, hqueue, rfl⟩ | ⟨chunk, hpending, hqueue, rfl, -⟩ |
    ⟨-, -, -, hnil, -⟩ := hcases
  · simp only [State.toRead, hpending, hqueue, Option.getD_some, List.length_append]
    omega
  · simp only [State.toRead, hpending, hqueue, Option.getD_none, List.map_cons, List.sum_cons,
      List.length_append, List.length_nil]
    omega
  · exact absurd hnil hne

end Read

/-! ### Whole runs -/

section Runs

variable {p p' p'' : State α} {e : Event α} {es es' : List (Event α)} {limit : Nat}

lemma Run.append (h : Run p es p') (h' : Run p' es' p'') : Run p (es ++ es') p'' := by
  induction h with
  | nil p => exact h'
  | cons hstep _ ih => exact .cons hstep (ih h')

lemma run_append_iff : Run p (es ++ es') p'' ↔ ∃ p', Run p es p' ∧ Run p' es' p'' := by
  constructor
  · intro h
    induction es generalizing p with
    | nil => exact ⟨p, .nil p, h⟩
    | cons e es ih =>
      cases h with
      | cons hstep hrest =>
        obtain ⟨p', hes, hes'⟩ := ih hrest
        exact ⟨p', .cons hstep hes, hes'⟩
  · rintro ⟨p', hes, hes'⟩
    exact hes.append hes'

/-- Where a run from the empty pipe has got to: some chunks are taken up, the pieces read so far
and what is pending are their elements, and there was no empty piece if none of them is empty and
the end was not seen. -/
structure Progress (es : List (Event α)) (p : State α) (taken : List (List α)) : Prop where
  proper : p.Proper
  chunks : written es = taken ++ p.queue
  elements : (pieces es).flatten ++ p.pending.getD [] = taken.flatten
  nonempty : [] ∉ pieces es → [] ∉ taken
  within : ∀ limit piece, Event.got limit piece ∈ es → piece.length ≤ limit

lemma progress_empty : Progress [] (empty : State α) [] :=
  ⟨by rintro _ ⟨⟩, rfl, rfl, by simp, by simp⟩

lemma Progress.step {taken : List (List α)} (h : Progress es p taken) (hstep : Step p e p') :
    ∃ taken', Progress (es ++ [e]) p' taken' := by
  cases hstep with
  | wrote chunk hopen =>
    refine ⟨taken, h.proper, ?_, ?_, ?_, ?_⟩
    · simp [← List.append_assoc, ← h.chunks]
    · simpa using h.elements
    · simpa using h.nonempty
    · simpa using h.within
  | closed =>
    refine ⟨taken, h.proper, ?_, ?_, ?_, ?_⟩
    · simpa using h.chunks
    · simpa using h.elements
    · simpa using h.nonempty
    · simpa using h.within
  | @got _ limit piece hpos hread =>
    obtain ⟨hlimit, hproper, -, hcases⟩ := read_cases h.proper hpos hread
    have hchunks : written (es ++ [.got limit piece]) = written es := by simp
    have hpieces : pieces (es ++ [.got limit piece]) = pieces es ++ [piece] := by simp
    have hwithin : ∀ l q, Event.got l q ∈ es ++ [.got limit piece] → q.length ≤ l := by
      intro l q hmem
      rcases List.mem_append.mp hmem with hmem | hmem
      · exact h.within l q hmem
      · obtain ⟨rfl, rfl⟩ : l = limit ∧ q = piece := by simpa using hmem
        exact hlimit
    obtain ⟨chunk, hpending, hne, hqueue, hparts⟩ | ⟨chunk, hpending, hqueue, hparts, hempty⟩ |
      ⟨hpending, hqueue, -, rfl, rfl⟩ := hcases
    · refine ⟨taken, hproper, ?_, ?_, ?_, hwithin⟩
      · rw [hchunks, hqueue, h.chunks]
      · rw [hpieces, ← h.elements, hpending, Option.getD_some, ← hparts]
        simp
      · rw [hpieces]
        intro hmem
        exact h.nonempty fun hin => hmem (List.mem_append_left _ hin)
    · refine ⟨taken ++ [chunk], hproper, ?_, ?_, ?_, hwithin⟩
      · rw [hchunks, h.chunks, hqueue]
        simp
      · have := h.elements
        rw [hpending] at this
        simp only [Option.getD_none, List.append_nil] at this
        rw [hpieces, List.flatten_append, List.flatten_append, this, ← hparts]
        simp
      · rw [hpieces]
        intro hmem hin
        rcases List.mem_append.mp hin with hin | hin
        · exact h.nonempty (fun hin' => hmem (List.mem_append_left _ hin')) hin
        · exact hmem (by simp [hempty.mpr (List.mem_singleton.mp hin).symm])
    · refine ⟨taken, hproper, ?_, ?_, ?_, hwithin⟩
      · rw [hchunks, h.chunks]
      · rw [hpieces, ← h.elements]
        simp
      · rw [hpieces]
        exact fun hmem => absurd (List.mem_append_right _ (List.mem_singleton_self _)) hmem

lemma Run.progress (h : Run empty es p) : ∃ taken, Progress es p taken := by
  induction es using List.reverseRecOn generalizing p with
  | nil =>
    cases h
    exact ⟨[], progress_empty⟩
  | append_singleton es e ih =>
    obtain ⟨p₁, hes, hlast⟩ := run_append_iff.mp h
    obtain ⟨taken, hprogress⟩ := ih hes
    cases hlast with
    | cons hstep hnil =>
      cases hnil
      exact hprogress.step hstep

lemma closed_read {limit : Nat} {piece : List α} (h : read p limit = some (p', piece)) :
    p'.closed = p.closed := by
  have hsplit : ∀ (p : State α) chunk, (split p chunk limit).1.closed = p.closed := by
    intro p chunk
    unfold split
    split_ifs <;> rfl
  unfold read at h
  cases hpending : p.pending with
  | some chunk =>
    rw [hpending] at h
    obtain ⟨rfl, -⟩ := Prod.mk.inj (Option.some.inj h)
    exact hsplit p chunk
  | none =>
    rw [hpending] at h
    cases hqueue : p.queue with
    | cons chunk queue =>
      rw [hqueue] at h
      obtain ⟨rfl, -⟩ := Prod.mk.inj (Option.some.inj h)
      exact hsplit _ chunk
    | nil =>
      rw [hqueue] at h
      dsimp only at h
      split_ifs at h
      obtain ⟨rfl, -⟩ := Prod.mk.inj (Option.some.inj h)
      rfl

lemma Run.closed_of_closed (h : Run p es p') (hclosed : p.closed = true) : p'.closed = true := by
  induction h with
  | nil p => exact hclosed
  | cons hstep _ ih =>
    cases hstep with
    | wrote chunk hopen => exact ih hclosed
    | closed => exact ih rfl
    | got hpos hread => exact ih ((closed_read hread).trans hclosed)

/-- A pipe that was closed stays closed. -/
lemma Run.closed_of_mem (h : Run p es p') (hmem : .closed ∈ es) : p'.closed = true := by
  obtain ⟨front, back, rfl⟩ := List.append_of_mem hmem
  obtain ⟨p₁, -, hrest⟩ := run_append_iff.mp h
  cases hrest with
  | cons hstep hback =>
    cases hstep
    exact hback.closed_of_closed rfl

/-- What is to be read yet was written. -/
lemma Progress.toRead_le {taken : List (List α)} (h : Progress es p taken) :
    p.toRead ≤ (written es).flatten.length + (written es).length := by
  have hpending := congrArg List.length h.elements
  have hqueue : ∀ chunks : List (List α),
      (chunks.map fun chunk => chunk.length + 1).sum = chunks.flatten.length + chunks.length := by
    intro chunks
    induction chunks with
    | nil => rfl
    | cons chunk chunks ih =>
      simp only [List.map_cons, List.sum_cons, ih, List.flatten_cons, List.length_append,
        List.length_cons]
      omega
  rw [State.toRead, hqueue, h.chunks, List.flatten_append, List.length_append, List.length_append]
  rw [List.length_append] at hpending
  omega

/-- Nothing is written into a closed pipe. -/
lemma Run.written_of_closed (h : Run p es p') (hclosed : p.closed = true) : written es = [] := by
  induction h with
  | nil p => rfl
  | @cons p p' p'' e es hstep _ ih =>
    cases hstep with
    | wrote chunk hopen =>
      rw [hclosed] at hopen
      cases hopen
    | closed => exact ih rfl
    | got hpos hread => exact ih ((closed_read hread).trans hclosed)

/-- The pieces before the first empty one are all that is written just when nothing is written
behind an empty chunk. -/
theorem Run.first_empty_iff (h : Run empty (es ++ .got limit [] :: es') p)
    (hfirst : [] ∉ pieces es) :
    (pieces es).flatten = (written (es ++ .got limit [] :: es')).flatten ↔
      EmptyLast (written (es ++ .got limit [] :: es')) := by
  obtain ⟨p₁, hes, hrest⟩ := run_append_iff.mp h
  obtain ⟨taken, hprogress⟩ := hes.progress
  have htaken := hprogress.nonempty hfirst
  have helements := hprogress.elements
  cases hrest with
  | @cons _ p₂ _ _ _ hstep hrest =>
    cases hstep with
    | got hpos hread =>
      have hwritten : written (es ++ .got limit [] :: es') = taken ++ p₁.queue ++ written es' := by
        rw [written_append, hprogress.chunks]
        rfl
      obtain ⟨-, -, hsame, hcases⟩ := read_cases hprogress.proper hpos hread
      obtain ⟨chunk, -, hne, -⟩ | ⟨chunk, hpending, hqueue, -, hempty⟩ |
        ⟨hpending, hqueue, hclosed, -, rfl⟩ := hcases
      · exact absurd rfl hne
      · obtain rfl := hempty.mp rfl
        rw [hpending, Option.getD_none, List.append_nil] at helements
        rw [hwritten, hqueue, helements, List.append_assoc, List.cons_append,
          emptyLast_append_nil_cons htaken]
        simp
      · rw [hpending, Option.getD_none, List.append_nil] at helements
        rw [hwritten, hrest.written_of_closed hclosed, hqueue, helements]
        simp [emptyLast_of_not_mem htaken]

end Runs

end Pipe
