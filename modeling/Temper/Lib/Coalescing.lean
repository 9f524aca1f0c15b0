import Mathlib
import Temper.Lib.Keyed

/-!
# Coalescing queues

A queue with room for one item of each key, up to a capacity. An item takes the place of an older
one of its key; an item that is not newer than the one in its place is skipped, and an item of a new
key is turned away when the queue is full. Items leave from the front, in the order of their keys.
-/

namespace Coalescing

open Keyed

variable {κ β : Type} [Ord κ] [Std.TransOrd κ] [Std.LawfulEqOrd κ]

inductive Outcome
  | enqueued
  | coalesced
  | staleSkipped
  | full
deriving DecidableEq, Repr

def Outcome.accepted : Outcome → Bool
  | .enqueued => true
  | .coalesced => true
  | _ => false

variable (key : β → κ) (seq : β → Nat)

def enqueue (capacity : Nat) (m : Map κ β) (v : β) : Map κ β × Outcome :=
  match m[key v]? with
  | some existing =>
    if seq existing ≥ seq v then (m, .staleSkipped) else (m.insert (key v) v, .coalesced)
  | none => if m.size ≥ capacity then (m, .full) else (m.insert (key v) v, .enqueued)

/-- Put an item back unless one that is not older is there, whatever the capacity. -/
def requeue (m : Map κ β) (v : β) : Map κ β :=
  match m[key v]? with
  | some existing => if seq existing ≥ seq v then m else m.insert (key v) v
  | none => m.insert (key v) v

/-- Take up to `n` items from the front. -/
def takeFirst : Nat → Map κ β → List β × Map κ β
  | 0, m => ([], m)
  | n + 1, m =>
    match m.toList with
    | [] => ([], m)
    | (k, v) :: _ =>
      let (vs, rest) := takeFirst n (m.erase k)
      (v :: vs, rest)

/-- Every item stands at its own key. -/
def AtKeys (m : Map κ β) : Prop := ∀ k v, m[k]? = some v → key v = k

variable {key seq} {m : Map κ β} {v : β} {capacity : Nat}

omit [Std.LawfulEqOrd κ] in
lemma atKeys_empty : AtKeys key (∅ : Map κ β) := by
  intro k v h
  simp at h

lemma AtKeys.insert (h : AtKeys key m) (v : β) : AtKeys key (m.insert (key v) v) := by
  classical
  intro k w hw
  rw [getElem?_insert_eq] at hw
  split_ifs at hw with hk
  · cases hw
    exact hk
  · exact h k w hw

lemma AtKeys.erase (h : AtKeys key m) (k : κ) : AtKeys key (m.erase k) := by
  classical
  intro j w hw
  rw [getElem?_erase_eq] at hw
  split_ifs at hw
  exact h j w hw

omit [Std.LawfulEqOrd κ] in
/-- An item that is accepted is newer than the one of its key, or finds room; others change
nothing. -/
lemma enqueue_cases (key : β → κ) (seq : β → Nat) (capacity : Nat) (m : Map κ β) (v : β) :
    ((enqueue key seq capacity m v).2.accepted = true ∧
      (enqueue key seq capacity m v).1 = m.insert (key v) v ∧
      (m[key v]? = none ∧ m.size < capacity ∨ ∃ old, m[key v]? = some old ∧ seq old < seq v)) ∨
    ((enqueue key seq capacity m v).2.accepted = false ∧ (enqueue key seq capacity m v).1 = m ∧
      (m[key v]? = none ∧ capacity ≤ m.size ∧ (enqueue key seq capacity m v).2 = .full ∨
        ∃ old, m[key v]? = some old ∧ seq v ≤ seq old)) := by
  unfold enqueue
  cases hget : m[key v]? with
  | none =>
    dsimp only
    split_ifs with hfull
    · exact .inr ⟨rfl, rfl, .inl ⟨rfl, hfull, rfl⟩⟩
    · exact .inl ⟨rfl, rfl, .inl ⟨rfl, not_le.mp hfull⟩⟩
  | some old =>
    dsimp only
    split_ifs with hstale
    · exact .inr ⟨rfl, rfl, .inr ⟨old, rfl, hstale⟩⟩
    · exact .inl ⟨rfl, rfl, .inr ⟨old, rfl, not_le.mp hstale⟩⟩

lemma AtKeys.enqueue (h : AtKeys key m) (v : β) : AtKeys key (enqueue key seq capacity m v).1 := by
  rcases enqueue_cases key seq capacity m v with ⟨-, heq, -⟩ | ⟨-, heq, -⟩
  · rw [heq]
    exact h.insert v
  · rw [heq]
    exact h

/-- What is taken: items at their places, of different keys, and no longer there afterwards. -/
theorem takeFirst_spec [DecidableEq κ] (n : Nat) (h : AtKeys key m) :
    (∀ v ∈ (takeFirst n m).1, m[key v]? = some v) ∧ ((takeFirst n m).1.map key).Nodup ∧
    (∀ k, (takeFirst n m).2[k]? =
      if k ∈ (takeFirst n m).1.map key then none else m[k]?) ∧
    (takeFirst n m).2.size ≤ m.size := by
  induction n generalizing m with
  | zero => exact ⟨by simp [takeFirst], by simp [takeFirst], by simp [takeFirst], le_rfl⟩
  | succ n ih =>
    rw [takeFirst]
    cases hlist : m.toList with
    | nil => exact ⟨by simp, by simp, by simp, le_rfl⟩
    | cons e rest =>
      obtain ⟨k, v⟩ := e
      have hget : m[k]? = some v := by
        rw [← Std.ExtTreeMap.mem_toList_iff_getElem?_eq_some, hlist]
        exact List.mem_cons_self
      obtain rfl : key v = k := h k v hget
      obtain ⟨hmem, hnodup, hrest, hsize⟩ := ih (h.erase (key v))
      have hother : ∀ w ∈ (takeFirst n (m.erase (key v))).1,
          key v ≠ key w ∧ m[key w]? = some w := by
        intro w hw
        have := hmem w hw
        rw [getElem?_erase_eq] at this
        split_ifs at this with hne
        exact ⟨hne, this⟩
      dsimp only
      refine ⟨?_, ?_, fun k => ?_, hsize.trans Std.ExtTreeMap.size_erase_le⟩
      · intro w hw
        rcases List.mem_cons.mp hw with rfl | hw
        · exact hget
        · exact (hother w hw).2
      · rw [List.map_cons, List.nodup_cons]
        refine ⟨fun hin => ?_, hnodup⟩
        obtain ⟨w, hw, heq⟩ := List.mem_map.mp hin
        exact (hother w hw).1 heq.symm
      · rw [hrest, getElem?_erase_eq]
        by_cases hk : k = key v
        · simp [hk]
        · simp only [List.map_cons, List.mem_cons, hk, false_or, if_neg (Ne.symm hk)]

lemma AtKeys.takeFirst (h : AtKeys key m) (n : Nat) : AtKeys key (takeFirst n m).2 := by
  classical
  intro k v hv
  rw [(takeFirst_spec n h).2.2.1] at hv
  split_ifs at hv
  exact h k v hv

end Coalescing
