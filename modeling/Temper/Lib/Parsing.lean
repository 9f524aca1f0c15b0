import Mathlib

/-!
# Parsers with a bound on their turns

A parser runs on a state and ends with a value and the state after it, or with an error. A loop is
given a number of turns and its result is missing when they are used up; a parser whose result is
never missing ends on every state.
-/

namespace Parsing

variable {σ ε α β : Type}

def Parser (σ ε α : Type) : Type := σ → Option (Except ε (α × σ))

namespace Parser

def ret (a : α) : Parser σ ε α := fun s => some (.ok (a, s))

/-- One parser after another. -/
def andThen (p : Parser σ ε α) (f : α → Parser σ ε β) : Parser σ ε β := fun s =>
  match p s with
  | none => none
  | some (.error e) => some (.error e)
  | some (.ok (a, s')) => f a s'

end Parser

instance : Monad (Parser σ ε) where
  pure := Parser.ret
  bind := Parser.andThen

/-- End with an error that may depend on the state. -/
def fail (error : σ → ε) : Parser σ ε α := fun s => some (.error (error s))

/-- Change the state, or end with an error. -/
def update (f : σ → Except ε σ) : Parser σ ε Unit := fun s => some ((f s).map fun s' => ((), s'))

/-- A run that gives a value. -/
def Yields (p : Parser σ ε α) (s : σ) (a : α) (s' : σ) : Prop := p s = some (.ok (a, s'))

/-- A run that does not use up its turns. -/
def Ends (p : Parser σ ε α) (s : σ) : Prop := p s ≠ none

variable {p : Parser σ ε α} {f : α → Parser σ ε β} {s s' : σ} {a : α} {b : β}

@[simp] lemma yields_pure_iff {a' : α} :
    Yields (pure a : Parser σ ε α) s a' s' ↔ a' = a ∧ s' = s := by
  simp [Yields, pure, Parser.ret, eq_comm]

@[simp] lemma yields_bind_iff :
    Yields (p >>= f) s b s' ↔ ∃ a s₁, Yields p s a s₁ ∧ Yields (f a) s₁ b s' := by
  change Parser.andThen p f s = _ ↔ _
  unfold Yields Parser.andThen
  cases h : p s with
  | none => simp
  | some r =>
    cases r with
    | error e => simp
    | ok r =>
      obtain ⟨a, s₁⟩ := r
      simp

@[simp] lemma not_yields_fail {error : σ → ε} : ¬ Yields (fail error : Parser σ ε α) s a s' := by
  simp [Yields, fail]

@[simp] lemma yields_update_iff {f : σ → Except ε σ} {u : Unit} :
    Yields (update f) s u s' ↔ f s = .ok s' := by
  unfold Yields update
  cases f s <;> simp [Except.map]

@[simp] lemma ends_pure : Ends (pure a : Parser σ ε α) s := by
  simp [Ends, pure, Parser.ret]

@[simp] lemma ends_fail {error : σ → ε} : Ends (fail error : Parser σ ε α) s := by
  simp [Ends, fail]

@[simp] lemma ends_update {f : σ → Except ε σ} : Ends (update f) s := by
  simp [Ends, update]

lemma ends_bind (hp : Ends p s) (hf : ∀ a s₁, Yields p s a s₁ → Ends (f a) s₁) :
    Ends (p >>= f) s := by
  change Parser.andThen p f s ≠ none
  unfold Ends at hp
  unfold Parser.andThen
  cases h : p s with
  | none => exact absurd h hp
  | some r =>
    cases r with
    | error e => simp
    | ok r =>
      obtain ⟨a, s₁⟩ := r
      exact hf a s₁ h

/-- Parsers are put together from the left as from the right. -/
lemma bind_then {γ : Type} (p : Parser σ ε α) (f : α → Parser σ ε β) (g : β → Parser σ ε γ) :
    ((p >>= f) >>= g) = p >>= fun a => f a >>= g := by
  funext s
  change Parser.andThen (Parser.andThen p f) g s =
    Parser.andThen p (fun a => Parser.andThen (f a) g) s
  unfold Parser.andThen
  cases p s with
  | none => rfl
  | some r => cases r <;> rfl

lemma yields_congr {q : Parser σ ε α} (h : p s = q s) : Yields p s a s' ↔ Yields q s a s' := by
  rw [Yields, Yields, h]

lemma ends_congr {q : Parser σ ε α} (h : p s = q s) : Ends p s ↔ Ends q s := by
  rw [Ends, Ends, h]

/-! ### Operands with separators between them -/

section Chains

variable (more : σ → Bool) (separator : Parser σ ε Unit) (operand : Parser σ ε α) (size : σ → Nat)

/-- Further operands for as long as there is a separator. -/
def chainRest : Nat → List α → Parser σ ε (List α)
  | 0, _ => fun _ => none
  | turns + 1, acc => fun s =>
    if more s then
      (separator >>= fun _ => operand >>= fun a => chainRest turns (acc ++ [a])) s
    else some (.ok (acc, s))

/-- One operand or more. As many turns are given as a state has size. -/
def chain : Parser σ ε (List α) :=
  operand >>= fun first s => chainRest more separator operand (size s + 1) [first] s

/-- The runs of a chain. -/
inductive Chained : σ → List α → σ → Prop
  | last {s s' : σ} {a : α} (h : Yields operand s a s') (hstop : more s' = false) :
      Chained s [a] s'
  | cons {s s₁ s₂ s' : σ} {a : α} {as : List α} (h : Yields operand s a s₁)
      (hmore : more s₁ = true) (hsep : Yields separator s₁ () s₂) (hrest : Chained s₂ as s') :
      Chained s (a :: as) s'

variable {more separator operand size}

lemma chainRest_succ (turns : Nat) (acc : List α) (s : σ) :
    chainRest more separator operand (turns + 1) acc s =
      if more s then
        (separator >>= fun _ => operand >>= fun a =>
          chainRest more separator operand turns (acc ++ [a])) s
      else some (.ok (acc, s)) := rfl

lemma yields_chain_apply_iff {as : List α} :
    Yields (chain more separator operand size) s as s' ↔ ∃ a s₁, Yields operand s a s₁ ∧
      Yields (chainRest more separator operand (size s₁ + 1) [a]) s₁ as s' :=
  yields_bind_iff

lemma chained_of_chainRest {turns : Nat} {acc as : List α}
    (h : Yields (chainRest more separator operand turns acc) s as s') :
    (as = acc ∧ s' = s ∧ more s = false) ∨
      ∃ s₁ rest, more s = true ∧ Yields separator s () s₁ ∧
        Chained more separator operand s₁ rest s' ∧ as = acc ++ rest := by
  induction turns generalizing acc s with
  | zero => simp [Yields, chainRest] at h
  | succ turns ih =>
    unfold Yields at h
    rw [chainRest_succ] at h
    split_ifs at h with hmore
    · have hbind : Yields (separator >>= fun _ => operand >>= fun a =>
          chainRest more separator operand turns (acc ++ [a])) s as s' := h
      simp only [yields_bind_iff] at hbind
      obtain ⟨_, s₁, hsep, a, s₂, hoperand, hrest⟩ := hbind
      rcases ih hrest with ⟨rfl, rfl, hstop⟩ | ⟨s₃, rest, hmore', hsep', hchained, rfl⟩
      · exact .inr ⟨s₁, [a], hmore, hsep, .last hoperand hstop, rfl⟩
      · refine .inr ⟨s₁, a :: rest, hmore, hsep, .cons hoperand hmore' hsep' hchained, ?_⟩
        rw [List.append_assoc, List.singleton_append]
    · simp only [Option.some.injEq, Except.ok.injEq, Prod.mk.injEq] at h
      exact .inl ⟨h.1.symm, h.2.symm, by simpa using hmore⟩

lemma chained_of_chain {as : List α} (h : Yields (chain more separator operand size) s as s') :
    Chained more separator operand s as s' := by
  obtain ⟨a, s₁, hoperand, hrest⟩ := yields_chain_apply_iff.mp h
  rcases chained_of_chainRest hrest with ⟨rfl, rfl, hstop⟩ | ⟨s₂, rest, hmore, hsep, hchained, rfl⟩
  · exact .last hoperand hstop
  · exact .cons hoperand hmore hsep hchained

/-- Separators shrink the state, operands do not let it grow. -/
structure Progress (more : σ → Bool) (separator : Parser σ ε Unit) (operand : Parser σ ε α)
    (size : σ → Nat) : Prop where
  separator : ∀ s u s', more s = true → Yields separator s u s' → size s' < size s
  operand : ∀ s a s', Yields operand s a s' → size s' ≤ size s

lemma chainRest_of_chained (hprogress : Progress more separator operand size) {turns : Nat}
    {acc as : List α} {s₁ : σ} (hmore : more s = true) (hsep : Yields separator s () s₁)
    (h : Chained more separator operand s₁ as s') (hturns : size s < turns) :
    Yields (chainRest more separator operand turns acc) s (acc ++ as) s' := by
  induction h generalizing turns acc s with
  | @last s₁ s' a hoperand hstop =>
    obtain ⟨turns, rfl⟩ : ∃ k, turns = k + 1 := ⟨turns - 1, by omega⟩
    have hless := hprogress.separator _ _ _ hmore hsep
    obtain ⟨turns, rfl⟩ : ∃ k, turns = k + 1 := ⟨turns - 1, by omega⟩
    unfold Yields
    rw [chainRest_succ, if_pos hmore]
    change Yields _ _ _ _
    simp only [yields_bind_iff]
    refine ⟨(), s₁, hsep, a, s', hoperand, ?_⟩
    unfold Yields
    rw [chainRest_succ, if_neg (by simp [hstop])]
  | @cons s₁ s₂ s₃ s' a as hoperand hmore' hsep' _ ih =>
    obtain ⟨turns, rfl⟩ : ∃ k, turns = k + 1 := ⟨turns - 1, by omega⟩
    have hless := hprogress.separator _ _ _ hmore hsep
    have hle := hprogress.operand _ _ _ hoperand
    unfold Yields
    rw [chainRest_succ, if_pos hmore]
    change Yields _ _ _ _
    simp only [yields_bind_iff]
    refine ⟨(), s₁, hsep, a, s₂, hoperand, ?_⟩
    have hrest : Yields (chainRest more separator operand turns (acc ++ [a])) s₂
        (acc ++ [a] ++ as) s' := ih hmore' hsep' (by omega)
    rwa [List.append_assoc, List.singleton_append] at hrest

/-- The turns of a chain are enough for all its runs. -/
lemma yields_chain_iff (hprogress : Progress more separator operand size) {as : List α} :
    Yields (chain more separator operand size) s as s' ↔
      Chained more separator operand s as s' := by
  refine ⟨chained_of_chain, fun h => ?_⟩
  rw [yields_chain_apply_iff]
  cases h with
  | @last _ _ a hoperand hstop =>
    refine ⟨a, s', hoperand, ?_⟩
    unfold Yields
    rw [chainRest_succ, if_neg (by simp [hstop])]
  | @cons _ s₁ s₂ _ a as hoperand hmore hsep hrest =>
    exact ⟨a, s₁, hoperand, chainRest_of_chained hprogress hmore hsep hrest (Nat.lt_succ_self _)⟩

lemma ends_chainRest (hprogress : Progress more separator operand size)
    (hsep : ∀ s, Ends separator s) (hoperand : ∀ s, Ends operand s) {turns : Nat} {acc : List α}
    (hturns : size s < turns) : Ends (chainRest more separator operand turns acc) s := by
  induction turns generalizing acc s with
  | zero => omega
  | succ turns ih =>
    unfold Ends
    rw [chainRest_succ]
    split_ifs with hmore
    · change Ends _ _
      refine ends_bind (hsep s) fun _ s₁ hs₁ => ends_bind (hoperand s₁) fun a s₂ hs₂ => ih ?_
      have hless := hprogress.separator _ _ _ hmore hs₁
      have hle := hprogress.operand _ _ _ hs₂
      omega
    · simp

lemma ends_chain (hprogress : Progress more separator operand size)
    (hsep : ∀ s, Ends separator s) (hoperand : ∀ s, Ends operand s) (s : σ) :
    Ends (chain more separator operand size) s :=
  ends_bind (hoperand s) fun _ s₁ _ =>
    ends_chainRest hprogress hsep hoperand (Nat.lt_succ_self (size s₁))

end Chains

end Parsing
