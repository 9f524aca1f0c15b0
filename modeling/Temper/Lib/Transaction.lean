import Mathlib

/-!
# Transactions

A transaction reads and writes a state and ends in a result or an error. An error does not undo
what was written before it, as with a function that mutates what it holds and then returns early.
`Ensures` states what holds of the outcome and the state afterwards; its rules run a transaction
statement by statement.
-/

universe u v w

/-- A computation on a state that may end early with an error. -/
def Transaction (σ : Type u) (ε : Type v) (α : Type w) := σ → Except ε α × σ

namespace Transaction

variable {σ τ ε α β : Type u}

instance : Monad (Transaction σ ε) where
  pure a := fun s => (.ok a, s)
  bind t f := fun s => match t s with
    | (.ok a, s') => f a s'
    | (.error e, s') => (.error e, s')

/-- End with an error. -/
def abort (e : ε) : Transaction σ ε α := fun s => (.error e, s)

/-- End with an error unless a condition holds. -/
def require (p : Prop) [Decidable p] (e : ε) : Transaction σ ε PUnit :=
  if p then pure ⟨⟩ else abort e

/-- End with an error unless there is a value. -/
def expect (o : Option α) (e : ε) : Transaction σ ε α := match o with
  | some a => pure a
  | none => abort e

def ofExcept (r : Except ε α) : Transaction σ ε α := fun s => (r, s)

def read : Transaction σ ε σ := fun s => (.ok s, s)

def update (f : σ → σ) : Transaction σ ε PUnit := fun s => (.ok ⟨⟩, f s)

/-- Run on a part of the state. -/
def zoom (get : σ → τ) (set : τ → σ → σ) (t : Transaction τ ε α) : Transaction σ ε α := fun s =>
  ((t (get s)).1, set (t (get s)).2 s)

/-! ### What a transaction ensures -/

/-- Started in `s`, the transaction ends with an outcome and a state that satisfy `Q`. -/
def Ensures (t : Transaction σ ε α) (s : σ) (Q : Except ε α → σ → Prop) : Prop := Q (t s).1 (t s).2

variable {s : σ} {Q : Except ε α → σ → Prop} {t : Transaction σ ε α}

lemma Ensures.apply (h : Ensures t s Q) {r : Except ε α} {s' : σ} (hrun : t s = (r, s')) :
    Q r s' := by
  simpa [Ensures, hrun] using h

lemma Ensures.mono {Q' : Except ε α → σ → Prop} (h : Ensures t s Q)
    (hQ : ∀ r s', Q r s' → Q' r s') : Ensures t s Q' := hQ _ _ h

@[simp] lemma ensures_pure {a : α} : Ensures (pure a) s Q ↔ Q (.ok a) s := Iff.rfl

variable {e : ε}

@[simp] lemma ensures_abort : Ensures (abort e) s Q ↔ Q (.error e) s := Iff.rfl

@[simp] lemma ensures_ofExcept {r : Except ε α} : Ensures (ofExcept r) s Q ↔ Q r s := Iff.rfl

@[simp] lemma ensures_read {Q : Except ε σ → σ → Prop} : Ensures read s Q ↔ Q (.ok s) s := Iff.rfl

@[simp] lemma ensures_update {Q : Except ε PUnit → σ → Prop} {f : σ → σ} :
    Ensures (update f) s Q ↔ Q (.ok ⟨⟩) (f s) := Iff.rfl

@[simp] lemma ensures_bind {t : Transaction σ ε β} {f : β → Transaction σ ε α} :
    Ensures (t >>= f) s Q ↔ Ensures t s fun r s' => match r with
      | .ok b => Ensures (f b) s' Q
      | .error e => Q (.error e) s' := by
  change Q (match t s with | (.ok a, s') => f a s' | (.error e, s') => (.error e, s')).1
    (match t s with | (.ok a, s') => f a s' | (.error e, s') => (.error e, s')).2 ↔ _
  unfold Ensures
  rcases t s with ⟨_ | _, s'⟩ <;> rfl

@[simp] lemma ensures_require {p : Prop} [Decidable p] {Q : Except ε PUnit → σ → Prop} :
    Ensures (require p e) s Q ↔ (p → Q (.ok ⟨⟩) s) ∧ (¬ p → Q (.error e) s) := by
  unfold require
  split_ifs with h <;> simp [h]

@[simp] lemma ensures_expect {o : Option α} :
    Ensures (expect o e) s Q ↔ (∀ a, o = some a → Q (.ok a) s) ∧ (o = none → Q (.error e) s) := by
  cases o <;> simp [expect]

@[simp] lemma ensures_zoom {get : σ → τ} {set : τ → σ → σ} {t : Transaction τ ε α} :
    Ensures (zoom get set t) s Q ↔ Ensures t (get s) fun r s' => Q r (set s' s) := Iff.rfl

@[simp] lemma ensures_ite {p : Prop} [Decidable p] {u : Transaction σ ε α} :
    Ensures (if p then t else u) s Q ↔ (p → Ensures t s Q) ∧ (¬ p → Ensures u s Q) := by
  split_ifs with h <;> simp [h]

/-! ### Guards

The rules of a prefix of guards: whatever stops there leaves the state as it was. -/

section Guards

variable {f : PUnit → Transaction σ ε α} {g : β → Transaction σ ε α}

lemma Ensures.of_require {p : Prop} [Decidable p] (hfail : Q (.error e) s)
    (h : p → Ensures (f ⟨⟩) s Q) : Ensures (require p e >>= f) s Q := by
  rw [ensures_bind, ensures_require]
  exact ⟨h, fun _ => hfail⟩

lemma Ensures.of_expect {o : Option β} (hfail : Q (.error e) s)
    (h : ∀ b, o = some b → Ensures (g b) s Q) : Ensures (expect o e >>= g) s Q := by
  rw [ensures_bind, ensures_expect]
  exact ⟨h, fun _ => hfail⟩

lemma Ensures.of_ofExcept {r : Except ε β} (hfail : ∀ e, r = .error e → Q (.error e) s)
    (h : ∀ b, r = .ok b → Ensures (g b) s Q) : Ensures (ofExcept r >>= g) s Q := by
  rw [ensures_bind, ensures_ofExcept]
  cases r with
  | error e => exact hfail e rfl
  | ok b => exact h b rfl

lemma Ensures.require_bind {p : Prop} [Decidable p] (hp : p) (h : Ensures (f ⟨⟩) s Q) :
    Ensures (require p e >>= f) s Q := by
  rw [ensures_bind, ensures_require]
  exact ⟨fun _ => h, fun hnot => absurd hp hnot⟩

lemma Ensures.expect_bind {o : Option β} {b : β} (ho : o = some b) (h : Ensures (g b) s Q) :
    Ensures (expect o e >>= g) s Q := by
  rw [ho]
  exact h

lemma Ensures.ofExcept_bind {r : Except ε β} {b : β} (hr : r = .ok b) (h : Ensures (g b) s Q) :
    Ensures (ofExcept r >>= g) s Q := by
  rw [hr]
  exact h

/-- A transaction that writes nothing. -/
def ReadOnly (t : Transaction σ ε α) : Prop := ∀ s, (t s).2 = s

lemma Ensures.of_readOnly {t : Transaction σ ε β} (ht : ReadOnly t)
    (hfail : ∀ e, (t s).1 = .error e → Q (.error e) s)
    (h : ∀ b, (t s).1 = .ok b → Ensures (g b) s Q) : Ensures (t >>= g) s Q := by
  rw [ensures_bind]
  unfold Ensures at *
  rw [ht s]
  cases hr : (t s).1 with
  | error e => exact hfail e hr
  | ok b => exact h b hr

lemma readOnly_pure {a : α} : ReadOnly (pure a : Transaction σ ε α) := fun _ => rfl

lemma readOnly_require {p : Prop} [Decidable p] :
    ReadOnly (require p e : Transaction σ ε PUnit) := by
  intro s
  unfold require
  split_ifs <;> rfl

lemma readOnly_expect {o : Option α} : ReadOnly (expect o e : Transaction σ ε α) := by
  intro s
  cases o <;> rfl

lemma readOnly_ofExcept {r : Except ε α} : ReadOnly (ofExcept r : Transaction σ ε α) := fun _ => rfl

lemma ReadOnly.bind {t : Transaction σ ε β} (ht : ReadOnly t) (hg : ∀ b, ReadOnly (g b)) :
    ReadOnly (t >>= g) := by
  intro s
  change (match t s with | (.ok b, s') => g b s' | (.error e, s') => (.error e, s')).2 = s
  have hts := ht s
  rcases h : t s with ⟨e | b, s'⟩
  · simpa [h] using hts
  · have hs' : s' = s := by simpa [h] using hts
    rw [← hs']
    exact hg b s'

/-! ### Frames -/

/-- A transaction that leaves the view `view` of the state alone, also when it fails. -/
def Frames (view : σ → τ) (t : Transaction σ ε α) : Prop := ∀ s, view (t s).2 = view s

variable {view : σ → τ}

lemma ReadOnly.frames (ht : ReadOnly t) : Frames view t :=
  fun s => congrArg view (ht s)

lemma frames_read : Frames view (read : Transaction σ ε σ) := fun _ => rfl

lemma frames_abort : Frames view (abort e : Transaction σ ε α) := fun _ => rfl

lemma frames_update {f : σ → σ} (h : ∀ s, view (f s) = view s) :
    Frames view (update f : Transaction σ ε PUnit) := h

lemma Frames.bind {t : Transaction σ ε β} (ht : Frames view t) (hg : ∀ b, Frames view (g b)) :
    Frames view (t >>= g) := by
  intro s
  change view (match t s with | (.ok b, s') => g b s' | (.error e, s') => (.error e, s')).2 = view s
  have hts := ht s
  rcases h : t s with ⟨e | b, s'⟩
  · simpa [h] using hts
  · have hs' : view s' = view s := by simpa [h] using hts
    exact (hg b s').trans hs'

lemma frames_ite {p : Prop} [Decidable p] {u : Transaction σ ε α} (ht : p → Frames view t)
    (hu : ¬ p → Frames view u) : Frames view (if p then t else u) := by
  split_ifs with hp
  · exact ht hp
  · exact hu hp

end Guards

end Transaction
