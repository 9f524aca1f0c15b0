import Mathlib

/-!
# Merging keyed lists

A list whose elements carry a key is merged with another one element after the other: an element
whose key is there already is combined with the one that has it, in its place, and any other
element goes to the end. When keys are unique such a list is known by the order of its keys and by
what it holds at each of them, and both are easy to compute for a merge; associativity and
idempotence then come down to those of the combination.
-/

namespace KeyedMerge

variable {α κ : Type*} [DecidableEq κ] (key : α → κ) (combine : α → α → α)

/-- Combine with the first element of this key, or append. -/
def put : List α → α → List α
  | [], y => [y]
  | x :: xs, y => if key x = key y then combine x y :: xs else x :: put xs y

def merge (xs ys : List α) : List α := ys.foldl (put key combine) xs

def lookup (xs : List α) (k : κ) : Option α := xs.find? fun x => key x = k

/-- Combining two elements of one key keeps the key. -/
def KeepsKey : Prop := ∀ x y, key x = key y → key (combine x y) = key y

variable {key combine}

/-! ### Reading a keyed list -/

@[simp] lemma lookup_nil (k : κ) : lookup key ([] : List α) k = none := rfl

lemma lookup_cons (x : α) (xs : List α) (k : κ) :
    lookup key (x :: xs) k = if key x = k then some x else lookup key xs k := by
  by_cases h : key x = k <;> simp [lookup, h]

variable {xs : List α}

lemma lookup_eq_none_iff {k : κ} : lookup key xs k = none ↔ k ∉ xs.map key := by
  simp [lookup, List.find?_eq_none]

lemma mem_of_lookup {k : κ} {x : α} (h : lookup key xs k = some x) : x ∈ xs ∧ key x = k :=
  ⟨List.mem_of_find?_eq_some h, by simpa using List.find?_some h⟩

lemma lookup_of_mem (hnodup : (xs.map key).Nodup) {x : α} (hx : x ∈ xs) :
    lookup key xs (key x) = some x := by
  cases h : lookup key xs (key x) with
  | none => exact absurd (List.mem_map_of_mem hx) (lookup_eq_none_iff.mp h)
  | some y =>
    obtain ⟨hy, hkey⟩ := mem_of_lookup h
    exact congrArg some (List.inj_on_of_nodup_map hnodup hy hx hkey)

/-- With unique keys, what a list holds at a key is the one element of that key. -/
lemma lookup_eq_some_iff (hnodup : (xs.map key).Nodup) {k : κ} {x : α} :
    lookup key xs k = some x ↔ x ∈ xs ∧ key x = k := by
  constructor
  · exact mem_of_lookup
  · rintro ⟨hx, rfl⟩
    exact lookup_of_mem hnodup hx

lemma mem_iff_lookup (hnodup : (xs.map key).Nodup) {x : α} :
    x ∈ xs ↔ lookup key xs (key x) = some x := by
  rw [lookup_eq_some_iff hnodup, and_iff_left rfl]

variable {ys : List α}

/-- Lists of unique keys in one order that hold the same at each key are equal. -/
lemma ext_of_lookup (hnodup : (xs.map key).Nodup) (hkeys : xs.map key = ys.map key)
    (h : ∀ k, lookup key xs k = lookup key ys k) : xs = ys := by
  induction xs generalizing ys with
  | nil => simpa using hkeys
  | cons x xs ih =>
    cases ys with
    | nil => simp at hkeys
    | cons y ys =>
      obtain ⟨hkey, hrest⟩ := List.cons.inj hkeys
      have hhead := h (key x)
      rw [lookup_cons, lookup_cons, if_pos rfl, if_pos hkey.symm] at hhead
      obtain rfl := Option.some.inj hhead
      obtain ⟨hfresh, hnodup'⟩ := List.nodup_cons.mp hnodup
      congr 1
      refine ih hnodup' hrest fun k => ?_
      by_cases hk : key x = k
      · subst hk
        rw [lookup_eq_none_iff.mpr hfresh, lookup_eq_none_iff.mpr (hrest ▸ hfresh)]
      · have hk' := h k
        rwa [lookup_cons, lookup_cons, if_neg hk, if_neg hk] at hk'

/-! ### Putting one element -/

lemma keys_put (hkeep : KeepsKey key combine) (xs : List α) (y : α) :
    (put key combine xs y).map key =
      if key y ∈ xs.map key then xs.map key else xs.map key ++ [key y] := by
  induction xs with
  | nil => simp [put]
  | cons x xs ih =>
    by_cases h : key x = key y
    · simp [put, h, hkeep x y h]
    · have h' : key y ≠ key x := fun heq => h heq.symm
      simp only [put, if_neg h, List.map_cons, ih, List.mem_cons, h', false_or]
      split_ifs <;> rfl

lemma lookup_put (hkeep : KeepsKey key combine) (xs : List α) (y : α) (k : κ) :
    lookup key (put key combine xs y) k =
      if key y = k then some ((lookup key xs k).elim y (combine · y)) else lookup key xs k := by
  induction xs with
  | nil => simp [put, lookup_cons]
  | cons x xs ih =>
    by_cases h : key x = key y
    · rw [put, if_pos h, lookup_cons, lookup_cons, hkeep x y h, h]
      split_ifs <;> rfl
    · simp only [put, if_neg h, lookup_cons, ih]
      by_cases hk : key x = k
      · have hy : key y ≠ k := fun heq => h (hk.trans heq.symm)
        simp only [if_pos hk, if_neg hy]
      · simp only [if_neg hk]

lemma nodup_keys_put (hkeep : KeepsKey key combine) (hnodup : (xs.map key).Nodup) (y : α) :
    ((put key combine xs y).map key).Nodup := by
  rw [keys_put hkeep]
  split_ifs with h
  · exact hnodup
  · rw [List.nodup_append_comm]
    exact List.nodup_cons.mpr ⟨h, hnodup⟩

/-! ### Merging -/

@[simp] lemma merge_nil (xs : List α) : merge key combine xs [] = xs := rfl

@[simp] lemma merge_cons (xs : List α) (y : α) (ys : List α) :
    merge key combine xs (y :: ys) = merge key combine (put key combine xs y) ys := rfl

lemma nodup_keys_merge (hkeep : KeepsKey key combine) (hnodup : (xs.map key).Nodup) (ys : List α) :
    ((merge key combine xs ys).map key).Nodup := by
  induction ys generalizing xs with
  | nil => exact hnodup
  | cons y ys ih => exact ih (nodup_keys_put hkeep hnodup y)

/-- The new keys come after the old ones, each list in its own order. -/
lemma keys_merge (hkeep : KeepsKey key combine) (xs : List α) (hys : (ys.map key).Nodup) :
    (merge key combine xs ys).map key = xs.map key ++ (ys.map key).filter (· ∉ xs.map key) := by
  induction ys generalizing xs with
  | nil => simp
  | cons y ys ih =>
    obtain ⟨hfresh, hys'⟩ := List.nodup_cons.mp hys
    rw [merge_cons, ih (put key combine xs y) hys', keys_put hkeep]
    split_ifs with h
    · simp only [List.map_cons, List.filter_cons, h, not_true_eq_false, decide_false,
        Bool.false_eq_true, if_false]
    · have hrest : (ys.map key).filter (· ∉ xs.map key ++ [key y]) =
          (ys.map key).filter (· ∉ xs.map key) := by
        refine List.filter_congr fun k hk => ?_
        have hne : k ≠ key y := fun heq => hfresh (heq ▸ hk)
        simp only [List.mem_append, List.mem_singleton, hne, or_false]
      simp only [hrest, List.map_cons, List.filter_cons, h, not_false_eq_true, decide_true, if_true,
        List.append_assoc, List.singleton_append]

lemma keys_merge_of_subset (hkeep : KeepsKey key combine) (hys : (ys.map key).Nodup)
    (hsub : ys.map key ⊆ xs.map key) : (merge key combine xs ys).map key = xs.map key := by
  have hnew : (ys.map key).filter (· ∉ xs.map key) = [] := by
    refine List.filter_eq_nil_iff.mpr fun k hk => ?_
    simpa using hsub hk
  rw [keys_merge hkeep _ hys, hnew, List.append_nil]

/-- What is held at a key by both lists is combined. -/
lemma lookup_merge (hkeep : KeepsKey key combine) (xs : List α) (hys : (ys.map key).Nodup) (k : κ) :
    lookup key (merge key combine xs ys) k =
      Option.merge combine (lookup key xs k) (lookup key ys k) := by
  induction ys generalizing xs with
  | nil => simp
  | cons y ys ih =>
    obtain ⟨hfresh, hys'⟩ := List.nodup_cons.mp hys
    rw [merge_cons, ih (put key combine xs y) hys', lookup_put hkeep, lookup_cons]
    split_ifs with h
    · subst h
      rw [lookup_eq_none_iff.mpr hfresh]
      cases lookup key xs (key y) <;> rfl
    · rfl

theorem merge_assoc (hkeep : KeepsKey key combine) {zs : List α} (hxs : (xs.map key).Nodup)
    (hys : (ys.map key).Nodup) (hzs : (zs.map key).Nodup)
    (hassoc : ∀ x ∈ xs, ∀ y ∈ ys, ∀ z ∈ zs, key x = key y → key y = key z →
      combine (combine x y) z = combine x (combine y z)) :
    merge key combine (merge key combine xs ys) zs =
      merge key combine xs (merge key combine ys zs) := by
  have hyz := nodup_keys_merge hkeep hys zs
  refine ext_of_lookup (nodup_keys_merge hkeep (nodup_keys_merge hkeep hxs ys) zs) ?_ fun k => ?_
  · rw [keys_merge hkeep _ hzs, keys_merge hkeep _ hys, keys_merge hkeep _ hyz,
      keys_merge hkeep _ hzs, List.append_assoc, List.filter_append, List.filter_filter]
    congr 2
    refine List.filter_congr fun k _ => ?_
    by_cases hx : k ∈ xs.map key <;> by_cases hy : k ∈ ys.map key <;>
      simp [hx, hy, -List.mem_map]
  · rw [lookup_merge hkeep _ hzs, lookup_merge hkeep _ hys, lookup_merge hkeep _ hyz,
      lookup_merge hkeep _ hzs]
    cases hx : lookup key xs k with
    | none => simp
    | some x =>
      cases hy : lookup key ys k with
      | none => simp
      | some y =>
        cases hz : lookup key zs k with
        | none => simp
        | some z =>
          obtain ⟨hx, hkx⟩ := mem_of_lookup hx
          obtain ⟨hy, hky⟩ := mem_of_lookup hy
          obtain ⟨hz, hkz⟩ := mem_of_lookup hz
          exact congrArg some
            (hassoc x hx y hy z hz (hkx.trans hky.symm) (hky.trans hkz.symm))

/-- Merging a second time changes nothing, if combining a second time does not. -/
theorem merge_merge_self (hkeep : KeepsKey key combine) (hxs : (xs.map key).Nodup)
    (hys : (ys.map key).Nodup) (hself : ∀ y ∈ ys, combine y y = y)
    (htwice : ∀ x ∈ xs, ∀ y ∈ ys, key x = key y → combine (combine x y) y = combine x y) :
    merge key combine (merge key combine xs ys) ys = merge key combine xs ys := by
  have hnodup := nodup_keys_merge hkeep hxs ys
  refine ext_of_lookup (nodup_keys_merge hkeep hnodup ys) ?_ fun k => ?_
  · refine keys_merge_of_subset hkeep hys fun k hk => ?_
    rw [keys_merge hkeep _ hys]
    by_cases hx : k ∈ xs.map key <;> simp [hx, hk, -List.mem_map]
  · rw [lookup_merge hkeep _ hys, lookup_merge hkeep _ hys]
    cases hy : lookup key ys k with
    | none => simp
    | some y =>
      obtain ⟨hy, hky⟩ := mem_of_lookup hy
      cases hx : lookup key xs k with
      | none => exact congrArg some (hself y hy)
      | some x =>
        obtain ⟨hx, hkx⟩ := mem_of_lookup hx
        exact congrArg some (htwice x hx y hy (hkx.trans hky.symm))

/-- Merging a list with itself changes nothing, if combining does not. -/
lemma merge_self (hkeep : KeepsKey key combine) (hys : (ys.map key).Nodup)
    (hself : ∀ y ∈ ys, combine y y = y) : merge key combine ys ys = ys := by
  refine ext_of_lookup (nodup_keys_merge hkeep hys ys)
    (keys_merge_of_subset hkeep hys (List.Subset.refl _)) fun k => ?_
  rw [lookup_merge hkeep _ hys]
  cases hy : lookup key ys k with
  | none => rfl
  | some y => exact congrArg some (hself y (mem_of_lookup hy).1)

/-! ### What a merge declares -/

section Overlay

variable {δ ι : Type*}

/-- What `Z` declares, when it is `X` updated by `Y`: of two declarations of one name the second
one is taken where it `wins`, and the first one elsewhere. -/
def Overlay (wins : δ → Bool) (name : δ → ι) (X Y Z : δ → Prop) : Prop :=
  ∀ d, Z d ↔
    if wins d then Y d ∨ X d ∧ ¬ ∃ d', Y d' ∧ name d' = name d
    else X d ∨ Y d ∧ ¬ ∃ d', X d' ∧ name d' = name d

/-- Declarations of one kind are overlaid among themselves. -/
lemma Overlay.embed {β ι' : Type*} {wins : δ → Bool} {name : δ → ι} {X Y Z : δ → Prop} (c : β → δ)
    {wins' : β → Bool} {name' : β → ι'}
    (h : Overlay wins' name' (fun b => X (c b)) (fun b => Y (c b)) (fun b => Z (c b)))
    (hwins : ∀ b, wins (c b) = wins' b)
    (hname : ∀ d b, name d = name (c b) ↔ ∃ b', d = c b' ∧ name' b' = name' b) (b : β) :
    Z (c b) ↔
      if wins (c b) then Y (c b) ∨ X (c b) ∧ ¬ ∃ d', Y d' ∧ name d' = name (c b)
      else X (c b) ∨ Y (c b) ∧ ¬ ∃ d', X d' ∧ name d' = name (c b) := by
  have hexists : ∀ W : δ → Prop, (∃ d', W d' ∧ name d' = name (c b)) ↔
      ∃ b', W (c b') ∧ name' b' = name' b := by
    intro W
    constructor
    · rintro ⟨d', hW, hd'⟩
      obtain ⟨b', rfl, hb'⟩ := (hname d' b).mp hd'
      exact ⟨b', hW, hb'⟩
    · rintro ⟨b', hW, hb'⟩
      exact ⟨c b', hW, (hname _ b).mpr ⟨b', rfl, hb'⟩⟩
  rw [hexists, hexists, hwins]
  exact h b

/-- Taking the second element of a key. -/
lemma overlay_replace (hxs : (xs.map key).Nodup) (hys : (ys.map key).Nodup) :
    Overlay (fun _ => true) key (· ∈ xs) (· ∈ ys) (· ∈ merge key (fun _ y => y) xs ys) := by
  have hkeep : KeepsKey key fun _ y : α => y := fun _ _ _ => rfl
  intro z
  have hnone : (¬ ∃ y, y ∈ ys ∧ key y = key z) ↔ lookup key ys (key z) = none := by
    rw [lookup_eq_none_iff, List.mem_map]
  change z ∈ _ ↔ if true then z ∈ _ ∨ z ∈ _ ∧ _ else _
  rw [if_pos rfl, hnone, mem_iff_lookup (nodup_keys_merge hkeep hxs ys),
    lookup_merge hkeep _ hys, mem_iff_lookup hxs, mem_iff_lookup hys]
  cases lookup key xs (key z) <;> cases lookup key ys (key z) <;> simp

/-- Keeping the first element of a key. -/
lemma overlay_keep (hxs : (xs.map key).Nodup) (hys : (ys.map key).Nodup) :
    Overlay (fun _ => false) key (· ∈ xs) (· ∈ ys) (· ∈ merge key (fun x _ => x) xs ys) := by
  have hkeep : KeepsKey key fun x _ : α => x := fun _ _ h => h
  intro z
  have hnone : (¬ ∃ x, x ∈ xs ∧ key x = key z) ↔ lookup key xs (key z) = none := by
    rw [lookup_eq_none_iff, List.mem_map]
  change z ∈ _ ↔ if false then _ else z ∈ _ ∨ z ∈ _ ∧ _
  rw [if_neg Bool.false_ne_true, hnone, mem_iff_lookup (nodup_keys_merge hkeep hxs ys),
    lookup_merge hkeep _ hys, mem_iff_lookup hxs, mem_iff_lookup hys]
  cases lookup key xs (key z) <;> cases lookup key ys (key z) <;> simp

variable (key) in
/-- What the elements of a list declare, each under its key. -/
def Within (D : α → δ → Prop) (xs : List α) (d : κ × δ) : Prop := ∃ x ∈ xs, key x = d.1 ∧ D x d.2

lemma within_iff {D : α → δ → Prop} (hxs : (xs.map key).Nodup) {d : κ × δ} :
    Within key D xs d ↔ ∃ x, lookup key xs d.1 = some x ∧ D x d.2 := by
  simp only [Within, lookup_eq_some_iff hxs, and_assoc]

omit [DecidableEq κ] in
/-- Declarations of one name are one declaration, if that holds of each element. -/
lemma Within.unique {D : α → δ → Prop} {name : δ → ι} (hxs : (xs.map key).Nodup)
    (hD : ∀ x ∈ xs, ∀ d d', D x d → D x d' → name d = name d' → d = d') {d d' : κ × δ}
    (hd : Within key D xs d) (hd' : Within key D xs d')
    (heq : Prod.map id name d = Prod.map id name d') : d = d' := by
  obtain ⟨hk, hname⟩ := Prod.mk.inj heq
  obtain ⟨x, hx, hkx, hDx⟩ := hd
  obtain ⟨x', hx', hkx', hDx'⟩ := hd'
  obtain rfl := List.inj_on_of_nodup_map hxs hx hx' (hkx.trans (hk.trans hkx'.symm))
  exact Prod.ext hk (hD x hx _ _ hDx hDx' hname)

/-- If combining elements overlays what they declare, merging lists does. -/
theorem overlay_merge {D : α → δ → Prop} {wins : δ → Bool} {name : δ → ι}
    (hkeep : KeepsKey key combine) (hxs : (xs.map key).Nodup) (hys : (ys.map key).Nodup)
    (h : ∀ x ∈ xs, ∀ y ∈ ys, key x = key y → Overlay wins name (D x) (D y) (D (combine x y))) :
    Overlay (fun d => wins d.2) (Prod.map id name) (Within key D xs) (Within key D ys)
      (Within key D (merge key combine xs ys)) := by
  rintro ⟨k, d⟩
  have hname : ∀ {zs : List α}, (zs.map key).Nodup →
      ((∃ d', Within key D zs d' ∧ Prod.map id name d' = (k, name d)) ↔
        ∃ z, lookup key zs k = some z ∧ ∃ d', D z d' ∧ name d' = name d) := by
    intro zs hzs
    constructor
    · rintro ⟨⟨k', d'⟩, hwithin, heq⟩
      obtain ⟨rfl, hd⟩ := Prod.mk.inj heq
      obtain ⟨z, hz, hD⟩ := (within_iff hzs).mp hwithin
      exact ⟨z, hz, d', hD, hd⟩
    · rintro ⟨z, hz, d', hD, hd⟩
      refine ⟨(k, d'), (within_iff hzs).mpr ⟨z, hz, hD⟩, ?_⟩
      rw [Prod.map, hd, id]
  change _ ↔ if wins d then _ ∨ _ ∧ ¬ (∃ d', Within key D ys d' ∧ Prod.map id name d' = (k, name d))
    else _ ∨ _ ∧ ¬ (∃ d', Within key D xs d' ∧ Prod.map id name d' = (k, name d))
  rw [hname hxs, hname hys, within_iff (nodup_keys_merge hkeep hxs ys), within_iff hxs,
    within_iff hys, lookup_merge hkeep _ hys]
  cases hx : lookup key xs k with
  | none => cases hy : lookup key ys k <;> simp
  | some x =>
    cases hy : lookup key ys k with
    | none => simp
    | some y =>
      obtain ⟨hx, hkx⟩ := mem_of_lookup hx
      obtain ⟨hy, hky⟩ := mem_of_lookup hy
      simpa using h x hx y hy (hkx.trans hky.symm) d

end Overlay

end KeyedMerge
