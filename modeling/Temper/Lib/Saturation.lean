import Mathlib

/-!
# Closing a set under rules

A rule adds its targets to a set that has one of its sources. All rules are gone through, again and
again, until the set stops growing. It does, and is then the least closed set around the first one.
-/

namespace Saturation

variable {α : Type} [DecidableEq α]

structure Rule (α : Type) where
  sources : List α
  targets : List α

def fire (s : Finset α) (rule : Rule α) : Finset α :=
  if ∃ x ∈ rule.sources, x ∈ s then s ∪ rule.targets.toFinset else s

/-- All rules once, in order. -/
def pass (rules : List (Rule α)) (s : Finset α) : Finset α := rules.foldl fire s

/-- Passes until one adds nothing. `none` if the fuel is used up. -/
def saturate (rules : List (Rule α)) : Nat → Finset α → Option (Finset α)
  | 0, _ => none
  | fuel + 1, s =>
    if (pass rules s).card = s.card then some (pass rules s)
    else saturate rules fuel (pass rules s)

/-- Closed under the rules. -/
def Closed (rules : List (Rule α)) (p : α → Prop) : Prop :=
  ∀ rule ∈ rules, (∃ x ∈ rule.sources, p x) → ∀ y ∈ rule.targets, p y

variable {rules : List (Rule α)} {s t : Finset α}

lemma subset_fire (rule : Rule α) : s ⊆ fire s rule := by
  unfold fire
  split_ifs
  · exact Finset.subset_union_left
  · exact Finset.Subset.refl s

lemma subset_pass : s ⊆ pass rules s := by
  unfold pass
  induction rules generalizing s with
  | nil => exact Finset.Subset.refl s
  | cons rule rules ih => exact (subset_fire rule).trans ih

lemma fire_of_closed {p : α → Prop} {rule : Rule α}
    (hrule : (∃ x ∈ rule.sources, p x) → ∀ y ∈ rule.targets, p y) (hs : ∀ x ∈ s, p x) :
    ∀ x ∈ fire s rule, p x := by
  unfold fire
  split_ifs with hfires
  · obtain ⟨y, hy, hys⟩ := hfires
    intro x hx
    rcases Finset.mem_union.mp hx with hx | hx
    · exact hs x hx
    · exact hrule ⟨y, hy, hs y hys⟩ x (List.mem_toFinset.mp hx)
  · exact hs

/-- A pass does not leave a closed set. -/
lemma pass_of_closed {p : α → Prop} (hclosed : Closed rules p) (hs : ∀ x ∈ s, p x) :
    ∀ x ∈ pass rules s, p x := by
  unfold pass
  induction rules generalizing s with
  | nil => exact hs
  | cons rule rules ih =>
    obtain ⟨hrule, hrules⟩ := List.forall_mem_cons.mp hclosed
    exact ih hrules (fire_of_closed hrule hs)

/-- A set that a pass does not change is closed. -/
lemma closed_of_pass_eq (h : pass rules s = s) : Closed rules (· ∈ s) := by
  unfold pass at h
  induction rules with
  | nil =>
    intro rule hrule
    cases hrule
  | cons rule rules ih =>
    rw [List.foldl_cons] at h
    have hfire : fire s rule = s := by
      refine Finset.Subset.antisymm ?_ (subset_fire rule)
      calc fire s rule ⊆ pass rules (fire s rule) := subset_pass
        _ = s := h
    rw [hfire] at h
    refine List.forall_mem_cons.mpr ⟨fun hsource y hy => ?_, ih h⟩
    rw [← hfire, fire, if_pos hsource]
    exact Finset.mem_union_right _ (List.mem_toFinset.mpr hy)

/-- The result is closed, holds the first set, and lies in every closed set that does. -/
lemma saturate_spec {fuel : Nat} (h : saturate rules fuel s = some t) :
    s ⊆ t ∧ Closed rules (· ∈ t) ∧
      ∀ p : α → Prop, Closed rules p → (∀ x ∈ s, p x) → ∀ x ∈ t, p x := by
  induction fuel generalizing s with
  | zero => cases h
  | succ fuel ih =>
    rw [saturate] at h
    split_ifs at h with hcard
    · cases h
      have heq : s = pass rules s := Finset.eq_of_subset_of_card_le subset_pass hcard.le
      refine ⟨subset_pass, ?_, fun p hp hs => pass_of_closed hp hs⟩
      rw [← heq]
      exact closed_of_pass_eq heq.symm
    · obtain ⟨hsub, hclosed, hleast⟩ := ih h
      exact ⟨subset_pass.trans hsub, hclosed, fun p hp hs => hleast p hp (pass_of_closed hp hs)⟩

/-- Each pass that goes on has added one of the targets. -/
lemma exists_saturate {nodes : Finset α} (hnodes : ∀ rule ∈ rules, ∀ y ∈ rule.targets, y ∈ nodes)
    (hs : s ⊆ nodes) {fuel : Nat} (hfuel : nodes.card < fuel + s.card) :
    ∃ t, saturate rules fuel s = some t := by
  induction fuel generalizing s with
  | zero =>
    have := Finset.card_le_card hs
    omega
  | succ fuel ih =>
    rw [saturate]
    split_ifs with hcard
    · exact ⟨_, rfl⟩
    · have hpass : pass rules s ⊆ nodes :=
        pass_of_closed (fun rule hrule _ y hy => hnodes rule hrule y hy) hs
      have hle : s.card ≤ (pass rules s).card := Finset.card_le_card subset_pass
      exact ih hpass (by omega)

end Saturation
