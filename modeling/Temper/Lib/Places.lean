import Mathlib

/-!
# Tokens in places

Tokens with keys lie in places. They are placed when every key that was issued lies in exactly one
place, once. Issuing a new key and moving tokens from place to place keep this.
-/

namespace Places

variable {P α κ : Type*} {key : α → κ} {contents contents' : P → List α} {issued : κ → Prop}

structure Placed (key : α → κ) (contents : P → List α) (issued : κ → Prop) : Prop where
  once : ∀ p, ((contents p).map key).Nodup
  apart : ∀ p q k, k ∈ (contents p).map key → k ∈ (contents q).map key → p = q
  covers : ∀ k, issued k ↔ ∃ p, k ∈ (contents p).map key

/-- An issued key lies in one place. -/
lemma Placed.existsUnique (h : Placed key contents issued) {k : κ} (hk : issued k) :
    ∃! p, k ∈ (contents p).map key := by
  obtain ⟨p, hp⟩ := (h.covers k).1 hk
  exact ⟨p, hp, fun q hq => h.apart q p k hq hp⟩

lemma Placed.congr (h : Placed key contents issued) (heq : ∀ p, contents' p = contents p) :
    Placed key contents' issued := by
  rw [funext heq]
  exact h

variable [DecidableEq P]

/-- A token with a new key is put in a place. -/
lemma Placed.issue (h : Placed key contents issued) {x : α} {q : P} (hnew : ¬ issued (key x))
    (hq : (contents' q).Perm (x :: contents q)) (hother : ∀ p, p ≠ q → contents' p = contents p) :
    Placed key contents' (fun k => issued k ∨ k = key x) := by
  have hmem : ∀ p k, k ∈ (contents' p).map key ↔
      k ∈ (contents p).map key ∨ p = q ∧ k = key x := by
    intro p k
    by_cases hp : p = q
    · subst hp
      rw [(hq.map key).mem_iff]
      simp [or_comm]
    · rw [hother p hp]
      simp [hp]
  have hfresh : ∀ p, key x ∉ (contents p).map key := fun p hp => hnew ((h.covers _).2 ⟨p, hp⟩)
  refine ⟨fun p => ?_, ?_, fun k => ?_⟩
  · by_cases hp : p = q
    · subst hp
      rw [(hq.map key).nodup_iff, List.map_cons, List.nodup_cons]
      exact ⟨hfresh p, h.once p⟩
    · rw [hother p hp]
      exact h.once p
  · intro p r k hp hr
    rw [hmem] at hp hr
    rcases hp with hp | ⟨rfl, rfl⟩ <;> rcases hr with hr | ⟨rfl, hk⟩
    · exact h.apart p r k hp hr
    · exact absurd (hk ▸ hp) (hfresh p)
    · exact absurd hr (hfresh r)
    · rfl
  · simp only [hmem, exists_or, h.covers]
    simp

/-- Tokens are moved from a place to another. -/
lemma Placed.move (h : Placed key contents issued) {p q : P} (xs : List α) (hne : p ≠ q)
    (hp : (contents p).Perm (xs ++ contents' p)) (hq : (contents' q).Perm (contents q ++ xs))
    (hother : ∀ r, r ≠ p → r ≠ q → contents' r = contents r) : Placed key contents' issued := by
  have hmemp : ∀ k, k ∈ (contents p).map key ↔ k ∈ xs.map key ∨ k ∈ (contents' p).map key := by
    intro k
    rw [(hp.map key).mem_iff, List.map_append, List.mem_append]
  have hmemq : ∀ k, k ∈ (contents' q).map key ↔ k ∈ (contents q).map key ∨ k ∈ xs.map key := by
    intro k
    rw [(hq.map key).mem_iff, List.map_append, List.mem_append]
  have hnodup := h.once p
  rw [(hp.map key).nodup_iff, List.map_append, List.nodup_append] at hnodup
  -- where a key lies now, and where it lay
  have hback : ∀ r k, k ∈ (contents' r).map key →
      k ∈ (contents r).map key ∨ r = q ∧ k ∈ xs.map key := by
    intro r k hk
    by_cases hrp : r = p
    · subst hrp
      exact .inl ((hmemp k).2 (.inr hk))
    · by_cases hrq : r = q
      · subst hrq
        rcases (hmemq k).1 hk with hk | hk
        · exact .inl hk
        · exact .inr ⟨rfl, hk⟩
      · rw [hother r hrp hrq] at hk
        exact .inl hk
  have hgone : ∀ r k, k ∈ xs.map key → k ∈ (contents' r).map key → r = q := by
    intro r k hxs hr
    rcases hback r k hr with hold | ⟨rfl, _⟩
    · have hrp : r = p := h.apart r p k hold ((hmemp k).2 (.inl hxs))
      subst hrp
      exact absurd rfl (hnodup.2.2 k hxs k hr)
    · rfl
  refine ⟨fun r => ?_, ?_, fun k => ?_⟩
  · by_cases hrp : r = p
    · subst hrp
      exact hnodup.2.1
    · by_cases hrq : r = q
      · subst hrq
        rw [(hq.map key).nodup_iff, List.map_append, List.nodup_append]
        refine ⟨h.once r, hnodup.1, ?_⟩
        rintro k hk _ hk' rfl
        exact hne (h.apart p r k ((hmemp k).2 (.inl hk')) hk)
      · rw [hother r hrp hrq]
        exact h.once r
  · intro r s k hr hs
    by_cases hxs : k ∈ xs.map key
    · rw [hgone r k hxs hr, hgone s k hxs hs]
    · rcases hback r k hr with hr | ⟨_, hr⟩
      · rcases hback s k hs with hs | ⟨_, hs⟩
        · exact h.apart r s k hr hs
        · exact absurd hs hxs
      · exact absurd hr hxs
  · rw [h.covers]
    constructor
    · rintro ⟨r, hr⟩
      by_cases hrp : r = p
      · subst hrp
        rcases (hmemp k).1 hr with hxs | hk
        · exact ⟨q, (hmemq k).2 (.inr hxs)⟩
        · exact ⟨r, hk⟩
      · by_cases hrq : r = q
        · subst hrq
          exact ⟨r, (hmemq k).2 (.inl hr)⟩
        · exact ⟨r, by rwa [hother r hrp hrq]⟩
    · rintro ⟨r, hr⟩
      rcases hback r k hr with hr | ⟨_, hxs⟩
      · exact ⟨r, hr⟩
      · exact ⟨p, (hmemp k).2 (.inl hxs)⟩

/-- The first tokens of a place are moved, each to a place of its own. -/
lemma Placed.scatter (h : Placed key contents issued) {p : P} (xs : List α) (dest : α → P)
    (hdest : ∀ x ∈ xs, dest x ≠ p) (hp : contents p = xs ++ contents' p)
    (hother : ∀ r, r ≠ p → contents' r = contents r ++ xs.filter (dest · = r)) :
    Placed key contents' issued := by
  induction xs generalizing contents with
  | nil =>
    refine h.congr fun r => ?_
    by_cases hr : r = p
    · subst hr
      simpa using hp.symm
    · simpa using hother r hr
  | cons x xs ih =>
    have hxp : dest x ≠ p := hdest x (by simp)
    let between : P → List α := Function.update
      (Function.update contents p (xs ++ contents' p)) (dest x) (contents (dest x) ++ [x])
    have hbetween : Placed key between issued := by
      refine h.move [x] hxp.symm ?_ ?_ ?_
      · simp [between, Function.update_of_ne hxp.symm, hp]
      · simp [between]
      · intro r hrp hrx
        simp [between, Function.update_of_ne hrx, Function.update_of_ne hrp]
    refine ih hbetween (fun y hy => hdest y (by simp [hy])) ?_ ?_
    · simp [between, Function.update_of_ne hxp.symm]
    · intro r hr
      rw [hother r hr]
      by_cases hrx : r = dest x
      · subst hrx
        simp [between]
      · simp [between, Function.update_of_ne hrx, Function.update_of_ne hr, Ne.symm hrx]

/-- Some places are emptied into another. -/
lemma Placed.gather (h : Placed key contents issued) (ps : List P) {q : P} (hps : ps.Nodup)
    (hq : q ∉ ps) (hto : contents' q = contents q ++ ps.flatMap contents)
    (hempty : ∀ p ∈ ps, contents' p = [])
    (hother : ∀ r, r ≠ q → r ∉ ps → contents' r = contents r) : Placed key contents' issued := by
  induction ps generalizing contents with
  | nil =>
    refine h.congr fun r => ?_
    by_cases hr : r = q
    · subst hr
      simpa using hto
    · exact hother r hr (by simp)
  | cons p ps ih =>
    rw [List.nodup_cons] at hps
    rw [List.mem_cons, not_or] at hq
    let between : P → List α := Function.update
      (Function.update contents p []) q (contents q ++ contents p)
    have hbetween : Placed key between issued := by
      refine h.move (contents p) (Ne.symm hq.1) ?_ ?_ ?_
      · simp [between, Function.update_of_ne (Ne.symm hq.1)]
      · simp [between]
      · intro r hrp hrq
        simp [between, Function.update_of_ne hrq, Function.update_of_ne hrp]
    have hsame : ∀ r ∈ ps, between r = contents r := by
      intro r hr
      have hrq : r ≠ q := fun heq => hq.2 (heq ▸ hr)
      have hrp : r ≠ p := fun heq => hps.1 (heq ▸ hr)
      simp [between, Function.update_of_ne hrq, Function.update_of_ne hrp]
    refine ih hbetween hps.2 hq.2 ?_ (fun r hr => hempty r (by simp [hr])) ?_
    · rw [hto, List.flatMap_cons, ← List.append_assoc]
      rw [List.flatMap_congr hsame]
      simp [between]
    · intro r hrq hr
      by_cases hrp : r = p
      · subst hrp
        simp [between, Function.update_of_ne hrq, hempty r (by simp)]
      · rw [hother r hrq (by simp [hrp, hr])]
        simp [between, Function.update_of_ne hrq, Function.update_of_ne hrp]

end Places
