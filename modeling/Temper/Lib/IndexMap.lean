import Mathlib

/-!
# Insertion-ordered maps

An insertion-ordered map is a list of bindings, read by its first binding of a key. Inserting at
a key that is bound replaces the value in place; inserting at a fresh key appends. Two such maps
are compared by what they bind (`IndexMap.Agree`), never by the order of their bindings, so each
operation comes with the equation for `get` and with the fact that it respects agreement.
-/

namespace IndexMap

variable {α β : Type*} [DecidableEq α]

/-- The value bound at `k`, if any. -/
def get (m : List (α × β)) (k : α) : Option β := m.lookup k

/-- Bind `k` to `v`: in place when `k` is bound, at the end otherwise. -/
def insert : List (α × β) → α → β → List (α × β)
  | [], k, v => [(k, v)]
  | (k', v') :: m, k, v => if k' = k then (k, v) :: m else (k', v') :: insert m k v

/-- Keep the bindings whose key satisfies `p`. -/
def retain (p : α → Bool) (m : List (α × β)) : List (α × β) := m.filter fun b => p b.1

/-- Drop the binding of `k`. -/
def remove (m : List (α × β)) (k : α) : List (α × β) := retain (fun k' => decide (k' ≠ k)) m

/-- The bindings of `w`, inserted one after the other. -/
def insertAll (m w : List (α × β)) : List (α × β) := w.foldl (fun m b => insert m b.1 b.2) m

def containsKey (m : List (α × β)) (k : α) : Bool := (get m k).isSome

@[simp] lemma get_nil (k : α) : get ([] : List (α × β)) k = none := rfl

lemma get_cons (k' k : α) (v : β) (m : List (α × β)) :
    get ((k', v) :: m) k = if k' = k then some v else get m k := by
  by_cases h : k' = k
  · subst h; simp [get]
  · have hne : (k == k') = false := beq_eq_false_iff_ne.mpr (Ne.symm h)
    simp [get, List.lookup_cons, hne, h]

@[simp] lemma get_insert (m : List (α × β)) (k k' : α) (v : β) :
    get (insert m k v) k' = if k = k' then some v else get m k' := by
  induction m with
  | nil => simp [insert, get_cons]
  | cons b m ih =>
    obtain ⟨k₀, v₀⟩ := b
    by_cases h₀ : k₀ = k
    · subst h₀
      simp only [insert, if_true, get_cons]
      split_ifs <;> rfl
    · simp only [insert, if_neg h₀, get_cons, ih]
      by_cases hk : k = k'
      · subst hk; simp [h₀]
      · simp [hk]

@[simp] lemma get_retain (p : α → Bool) (m : List (α × β)) (k : α) :
    get (retain p m) k = if p k then get m k else none := by
  induction m with
  | nil => simp [retain]
  | cons b m ih =>
    obtain ⟨k₀, v₀⟩ := b
    have hcons : retain p ((k₀, v₀) :: m) =
        if p k₀ then (k₀, v₀) :: retain p m else retain p m := by
      simp [retain, List.filter_cons]
    rw [hcons]
    by_cases h₀ : p k₀
    · rw [if_pos h₀, get_cons, get_cons, ih]
      by_cases hk : k₀ = k
      · subst hk; simp [h₀]
      · simp [hk]
    · rw [if_neg h₀, ih, get_cons]
      by_cases hk : k₀ = k
      · subst hk; simp [h₀]
      · simp [hk]

@[simp] lemma get_remove (m : List (α × β)) (k k' : α) :
    get (remove m k) k' = if k = k' then none else get m k' := by
  rw [remove, get_retain]
  by_cases h : k = k'
  · simp [h]
  · simp [h, Ne.symm h]

variable {m : List (α × β)} {k : α}

/-- A bound value occurs in the list of bindings. -/
lemma mem_of_get {v : β} (h : get m k = some v) : (k, v) ∈ m := by
  induction m with
  | nil => simp at h
  | cons b m ih =>
    obtain ⟨k₀, v₀⟩ := b
    rw [get_cons] at h
    by_cases hk : k₀ = k
    · simp_all
    · rw [if_neg hk] at h
      exact List.mem_cons_of_mem _ (ih h)

/-- A key that occurs in the list of bindings is bound. -/
lemma get_of_mem_of_nodup (hnodup : (m.map Prod.fst).Nodup) {v : β} (h : (k, v) ∈ m) :
    get m k = some v := by
  induction m with
  | nil => simp at h
  | cons b m ih =>
    obtain ⟨k', v'⟩ := b
    rw [List.map_cons, List.nodup_cons] at hnodup
    rw [get_cons]
    rcases List.mem_cons.mp h with heq | hrest
    · obtain ⟨rfl, rfl⟩ := Prod.mk.inj heq
      simp
    · have hne : k' ≠ k := by
        rintro rfl
        exact hnodup.1 (List.mem_map.mpr ⟨_, hrest, rfl⟩)
      rw [if_neg hne]
      exact ih hnodup.2 hrest

lemma get_isSome_of_mem {v : β} (h : (k, v) ∈ m) : (get m k).isSome := by
  induction m with
  | nil => simp at h
  | cons b m ih =>
    obtain ⟨k₀, v₀⟩ := b
    rw [get_cons]
    by_cases hk : k₀ = k
    · simp [hk]
    · rw [if_neg hk]
      rcases List.mem_cons.mp h with heq | hmem
      · exact absurd (congrArg Prod.fst heq).symm hk
      · exact ih hmem

lemma get_eq_none_iff : get m k = none ↔ ∀ b ∈ m, b.1 ≠ k := by
  induction m with
  | nil => simp
  | cons b m ih =>
    obtain ⟨k₀, v₀⟩ := b
    rw [get_cons]
    by_cases hk : k₀ = k
    · simp [hk]
    · simp [hk, ih]

/-- What is bound after an insertion was bound before or is what was inserted. -/
lemma mem_insert {v : β} {b : α × β} (h : b ∈ insert m k v) : b ∈ m ∨ b = (k, v) := by
  induction m with
  | nil => simpa [insert] using h
  | cons b₀ m ih =>
    rw [insert] at h
    split_ifs at h with hk
    · obtain rfl | h := List.mem_cons.mp h
      · exact .inr rfl
      · exact .inl (List.mem_cons_of_mem _ h)
    · obtain rfl | h := List.mem_cons.mp h
      · exact .inl List.mem_cons_self
      · obtain h | h := ih h
        · exact .inl (List.mem_cons_of_mem _ h)
        · exact .inr h

/-- Inserting at a name that is not bound keeps every binding. -/
lemma mem_insert_of_mem {v : β} {b : α × β} (h : b ∈ m) (hk : get m k = none) :
    b ∈ insert m k v := by
  induction m with
  | nil => cases h
  | cons b₀ m ih =>
    obtain ⟨k₀, v₀⟩ := b₀
    rw [get_cons] at hk
    split_ifs at hk with hne
    rw [insert, if_neg hne]
    obtain rfl | h := List.mem_cons.mp h
    · exact List.mem_cons_self
    · exact List.mem_cons_of_mem _ (ih h hk)

lemma insert_ne_nil {v : β} : insert m k v ≠ [] := by
  cases m with
  | nil => exact List.cons_ne_nil _ _
  | cons b m =>
    rw [insert]
    split_ifs <;> exact List.cons_ne_nil _ _

/-- Inserting at a fresh key appends. -/
lemma insert_eq_append (h : get m k = none) (v : β) : insert m k v = m ++ [(k, v)] := by
  induction m with
  | nil => rfl
  | cons b m ih =>
    obtain ⟨k₀, v₀⟩ := b
    rw [get_cons] at h
    split_ifs at h with hne
    rw [insert, if_neg hne, ih h]
    rfl

/-- Reading after a batch of insertions: the last binding of the batch wins. -/
lemma get_insertAll (m w : List (α × β)) (k : α) :
    get (insertAll m w) k = (get w.reverse k).or (get m k) := by
  induction w generalizing m with
  | nil => simp [insertAll]
  | cons b w ih =>
    obtain ⟨k₀, v₀⟩ := b
    have happ : ∀ w : List (α × β),
        get (w ++ [(k₀, v₀)]) k = (get w k).or (if k₀ = k then some v₀ else none) := by
      intro w
      induction w with
      | nil => simp [get_cons]
      | cons c w ihw =>
        obtain ⟨k₁, v₁⟩ := c
        simp only [List.cons_append, get_cons, ihw]
        split_ifs <;> simp
    have hstep : insertAll m ((k₀, v₀) :: w) = insertAll (insert m k₀ v₀) w := rfl
    rw [hstep, ih, List.reverse_cons, happ, get_insert]
    cases get w.reverse k with
    | none => split_ifs <;> simp
    | some v => simp

/-! ### Agreement -/

/-- Two maps bind the same keys to the same values. -/
def Agree (m m' : List (α × β)) : Prop := ∀ k, get m k = get m' k

lemma Agree.refl (m : List (α × β)) : Agree m m := fun _ => rfl

variable {m' : List (α × β)}

lemma Agree.symm (h : Agree m m') : Agree m' m := fun k => (h k).symm

lemma Agree.trans {m₁ m₂ m₃ : List (α × β)} (h : Agree m₁ m₂) (h' : Agree m₂ m₃) :
    Agree m₁ m₃ := fun k => (h k).trans (h' k)

lemma Agree.insert (h : Agree m m') (k : α) (v : β) : Agree (insert m k v) (insert m' k v) := by
  intro k'
  simp only [get_insert, h k']

lemma Agree.insertAll (h : Agree m m') (w : List (α × β)) :
    Agree (insertAll m w) (insertAll m' w) := by
  intro k
  simp only [get_insertAll, h k]

end IndexMap
