import Mathlib

/-!
# Numbering by first occurrence

A list of names is renumbered by replacing each name with the place of its first occurrence, an
empty place staying empty. What comes out grows by at most one at a time, and depends on nothing
but which places hold the same name. Any names can be exchanged for small ones that agree on this.
-/

namespace Temper.Renumber

section Renumber

variable {α β : Type*} [DecidableEq α] [Zero α] [DecidableEq β] [Zero β]

/-- The names met so far, with one more. -/
def meet (seen : List α) (x : α) : List α := if x ∈ seen then seen else seen ++ [x]

/-- Number the names after those already seen; zero is an empty place. -/
def renumber (seen : List α) : List α → List Nat
  | [] => []
  | x :: xs =>
    if x = 0 then 0 :: renumber seen xs
    else ((meet seen x).idxOf x + 1) :: renumber (meet seen x) xs

/-- Each number is at most one above those before it. -/
def RestrictedGrowth (m : Nat) : List Nat → Prop
  | [] => True
  | n :: ns => n ≤ m + 1 ∧ RestrictedGrowth (max m n) ns

/-- The two columns hold equal entries in the same places, and empty ones too. -/
structure SamePlaces (ps : List (α × β)) : Prop where
  zero : ∀ p ∈ ps, p.1 = 0 ↔ p.2 = 0
  eq : ∀ p ∈ ps, ∀ q ∈ ps, p.1 = q.1 ↔ p.2 = q.2

omit [Zero α] in
lemma mem_meet (seen : List α) (x : α) : x ∈ meet seen x := by
  by_cases h : x ∈ seen <;> simp [meet, h]

@[simp] lemma length_renumber (seen xs : List α) : (renumber seen xs).length = xs.length := by
  induction xs generalizing seen with
  | nil => rfl
  | cons x xs ih => by_cases h : x = 0 <;> simp [renumber, h, ih]

/-- The empty places are the numbers zero. -/
lemma getElem?_renumber_eq_zero (seen xs : List α) (i : Nat) :
    (renumber seen xs)[i]? = some 0 ↔ xs[i]? = some 0 := by
  induction xs generalizing seen i with
  | nil => simp [renumber]
  | cons x xs ih =>
    cases i with
    | zero => by_cases h : x = 0 <;> simp [renumber, h]
    | succ i => by_cases h : x = 0 <;> simp [renumber, h, ih]

lemma restrictedGrowth_renumber (seen xs : List α) :
    RestrictedGrowth seen.length (renumber seen xs) := by
  induction xs generalizing seen with
  | nil => trivial
  | cons x xs ih =>
    by_cases hzero : x = 0
    · simpa [renumber, hzero, RestrictedGrowth] using ih seen
    · have hlt : (meet seen x).idxOf x < (meet seen x).length :=
        List.idxOf_lt_length_of_mem (mem_meet seen x)
      -- A name seen before keeps the count of names; a new one takes the next number.
      have hgrow : (meet seen x).length ≤ seen.length + 1 ∧
          max seen.length ((meet seen x).idxOf x + 1) = (meet seen x).length := by
        by_cases hseen : x ∈ seen
        · simp only [meet, hseen, if_true] at hlt ⊢
          omega
        · have hplace : (seen ++ [x]).idxOf x = seen.length := by
            simp [List.idxOf_append_of_notMem hseen]
          simp [meet, hseen, hplace]
      simp only [renumber, hzero, if_false, RestrictedGrowth]
      rw [hgrow.2]
      exact ⟨by omega, ih _⟩

omit [Zero α] [Zero β] in
lemma idxOf_map_eq {ps : List (α × β)} {x : α} {y : β} (h : ∀ p ∈ ps, p.1 = x ↔ p.2 = y) :
    (ps.map Prod.fst).idxOf x = (ps.map Prod.snd).idxOf y := by
  induction ps with
  | nil => rfl
  | cons p ps ih =>
    have hhead := h p (by simp)
    have htail := ih fun q hq => h q (List.mem_cons_of_mem p hq)
    by_cases hp : p.1 = x
    · simp [hp, hhead.mp hp]
    · have hp' : p.2 ≠ y := fun heq => hp (hhead.mpr heq)
      simp [List.idxOf_cons_ne, hp, hp', htail]

omit [Zero α] [Zero β] in
lemma meet_map_eq (ps : List (α × β)) (p : α × β) (h : ∀ q ∈ ps, q.1 = p.1 ↔ q.2 = p.2) :
    ∃ qs : List (α × β), meet (ps.map Prod.fst) p.1 = qs.map Prod.fst ∧
      meet (ps.map Prod.snd) p.2 = qs.map Prod.snd ∧ ∀ q, q ∈ qs → q ∈ ps ∨ q = p := by
  have hiff : p.1 ∈ ps.map Prod.fst ↔ p.2 ∈ ps.map Prod.snd := by
    simp only [List.mem_map]
    exact exists_congr fun q => and_congr_right fun hq => h q hq
  by_cases hmem : p.1 ∈ ps.map Prod.fst
  · refine ⟨ps, if_pos hmem, if_pos (hiff.mp hmem), ?_⟩
    exact fun q hq => .inl hq
  · refine ⟨ps ++ [p], ?_, ?_, ?_⟩
    · rw [meet, if_neg hmem, List.map_append, List.map_singleton]
    · rw [meet, if_neg fun hmem' => hmem (hiff.mpr hmem'), List.map_append, List.map_singleton]
    · intro q hq
      simpa using hq

lemma renumber_eq_of_samePlaces_from (seen ps : List (α × β)) (h : SamePlaces (seen ++ ps)) :
    renumber (seen.map Prod.fst) (ps.map Prod.fst) =
      renumber (seen.map Prod.snd) (ps.map Prod.snd) := by
  induction ps generalizing seen with
  | nil => rfl
  | cons p ps ih =>
    have hp : p ∈ seen ++ p :: ps := by simp
    obtain ⟨seen', hfst, hsnd, hmem⟩ := meet_map_eq seen p
      fun q hq => h.eq q (List.mem_append_left _ hq) p hp
    have hsub : ∀ q, q ∈ seen' → q ∈ seen ++ p :: ps := by
      intro q hq
      obtain hq | rfl := hmem q hq
      · exact List.mem_append_left _ hq
      · exact hp
    have hrest : ∀ q, q ∈ seen' ++ ps → q ∈ seen ++ p :: ps := by
      intro q hq
      obtain hq | hq := List.mem_append.mp hq
      · exact hsub q hq
      · simp [hq]
    by_cases hzero : p.1 = 0
    · have hzero' : p.2 = 0 := (h.zero p hp).mp hzero
      have hskip : ∀ q, q ∈ seen ++ ps → q ∈ seen ++ p :: ps := by
        intro q hq
        obtain hq | hq := List.mem_append.mp hq <;> simp [hq]
      simp only [List.map_cons, renumber, hzero, hzero', if_true]
      rw [ih seen ⟨fun q hq => h.zero q (hskip q hq),
        fun q hq r hr => h.eq q (hskip q hq) r (hskip r hr)⟩]
    · have hzero' : p.2 ≠ 0 := fun heq => hzero ((h.zero p hp).mpr heq)
      simp only [List.map_cons, renumber, hzero, hzero', if_false, hfst, hsnd]
      rw [idxOf_map_eq fun q hq => h.eq q (hsub q hq) p hp,
        ih seen' ⟨fun q hq => h.zero q (hrest q hq),
          fun q hq r hr => h.eq q (hrest q hq) r (hrest r hr)⟩]

/-- Renumbering sees only which places are equal and which are empty. -/
theorem renumber_eq_of_samePlaces {ps : List (α × β)} (h : SamePlaces ps) :
    renumber [] (ps.map Prod.fst) = renumber [] (ps.map Prod.snd) :=
  renumber_eq_of_samePlaces_from [] ps h

omit [Zero α] in
lemma prefix_foldl_meet (seen xs : List α) : seen <+: xs.foldl meet seen := by
  induction xs generalizing seen with
  | nil => exact List.prefix_rfl
  | cons x xs ih =>
    refine List.IsPrefix.trans ?_ (ih (meet seen x))
    unfold meet
    split
    · exact List.prefix_rfl
    · exact List.prefix_append seen [x]

omit [Zero α] in
lemma mem_foldl_meet {seen xs : List α} {x : α} (h : x ∈ xs) : x ∈ xs.foldl meet seen := by
  induction xs generalizing seen with
  | nil => simp at h
  | cons y xs ih =>
    obtain rfl | h := List.mem_cons.mp h
    · exact (prefix_foldl_meet _ xs).subset (mem_meet seen x)
    · exact ih h

/-- A number is the place of the name among all names met. -/
lemma renumber_eq_map {xs : List α} (h : 0 ∉ xs) (seen : List α) :
    renumber seen xs = xs.map fun x => (xs.foldl meet seen).idxOf x + 1 := by
  induction xs generalizing seen with
  | nil => rfl
  | cons x xs ih =>
    rw [List.mem_cons, not_or] at h
    obtain ⟨later, hlater⟩ := prefix_foldl_meet (meet seen x) xs
    have hplace : (meet seen x).idxOf x = (xs.foldl meet (meet seen x)).idxOf x := by
      rw [← hlater, List.idxOf_append_of_mem (mem_meet seen x)]
    rw [renumber, if_neg (Ne.symm h.1), List.map_cons, List.foldl_cons, ih h.2, hplace]

/-- The numbers are equal where the names are. -/
lemma getElem?_renumber_eq_iff {xs : List α} (h : 0 ∉ xs) (seen : List α) {i j : Nat}
    (hi : i < xs.length) (hj : j < xs.length) :
    (renumber seen xs)[i]? = (renumber seen xs)[j]? ↔ xs[i]? = xs[j]? := by
  have hmem : xs[i] ∈ xs.foldl meet seen := mem_foldl_meet (List.getElem_mem hi)
  rw [renumber_eq_map h, List.getElem?_map, List.getElem?_map, List.getElem?_eq_getElem hi,
    List.getElem?_eq_getElem hj]
  simp [List.idxOf_inj hmem]

end Renumber

variable {m : Nat} {ns : List Nat}

lemma le_of_restrictedGrowth (h : RestrictedGrowth m ns) : ∀ n ∈ ns, n ≤ m + ns.length := by
  induction ns generalizing m with
  | nil => simp
  | cons k ns ih =>
    obtain ⟨hk, hns⟩ := h
    intro n hn
    rw [List.length_cons]
    obtain rfl | hn := List.mem_cons.mp hn
    · omega
    · have := ih hns n hn
      omega

variable {n k : Nat}

/-- No number is left out below one that occurs. -/
lemma mem_of_restrictedGrowth (h : RestrictedGrowth m ns) (hn : n ∈ ns) (hlt : m < k)
    (hle : k ≤ n) : k ∈ ns := by
  induction ns generalizing m with
  | nil => simp at hn
  | cons i ns ih =>
    obtain ⟨hi, hns⟩ := h
    obtain rfl | hn := List.mem_cons.mp hn
    · obtain rfl : k = n := by omega
      simp
    · by_cases hmax : max m i < k
      · exact List.mem_cons_of_mem i (ih hns hn hmax)
      · obtain rfl : k = i := by omega
        simp

lemma restrictedGrowth_iff : RestrictedGrowth m ns ↔
    ∀ i n, ns[i]? = some n → n ≤ (ns.take i).foldl max m + 1 := by
  induction ns generalizing m with
  | nil => simp [RestrictedGrowth]
  | cons k ns ih =>
    rw [RestrictedGrowth, ih]
    constructor
    · rintro ⟨hk, hns⟩ i n hn
      cases i with
      | zero =>
        obtain rfl : k = n := by simpa using hn
        exact hk
      | succ i => exact hns i n (by simpa using hn)
    · intro h
      exact ⟨h 0 k rfl, fun i n hn => h (i + 1) n (by simpa using hn)⟩

/-- A list of restricted growth is numbered by first occurrence already. -/
lemma renumber_of_restrictedGrowth (h : RestrictedGrowth m ns) :
    renumber (List.range' 1 m) ns = ns := by
  induction ns generalizing m with
  | nil => rfl
  | cons n ns ih =>
    obtain ⟨hn, hns⟩ := h
    by_cases hzero : n = 0
    · subst hzero
      rw [Nat.max_zero] at hns
      rw [renumber, if_pos rfl, ih hns]
    · have hmeet : meet (List.range' 1 m) n = List.range' 1 (max m n) := by
        unfold meet
        split
        case isTrue hmem =>
          rw [List.mem_range'_1] at hmem
          rw [max_eq_left (by omega)]
        case isFalse hmem =>
          rw [List.mem_range'_1] at hmem
          obtain rfl : n = m + 1 := by omega
          rw [max_eq_right (by omega), List.range'_concat]
          simp [Nat.add_comm]
      have hplace : (List.range' 1 (max m n)).idxOf n + 1 = n := by
        have hlt : n - 1 < (List.range' 1 (max m n)).length := by
          rw [List.length_range']
          omega
        have hget : (List.range' 1 (max m n)).get ⟨n - 1, hlt⟩ = n := by
          simp
          omega
        have hidx := List.Nodup.idxOf_getElem (List.nodup_range' (s := 1) (n := max m n)) _ hlt
        rw [List.get_eq_getElem] at hget
        simp only at hget
        rw [hget] at hidx
        omega
      rw [renumber, if_neg hzero, hmeet, ih hns, hplace]

/-! ### Small names -/

/-- Keep the names up to `k` and number the others after them. -/
def shrink (k : Nat) (names : List Nat) (n : Nat) : Nat :=
  if n ≤ k then n else k + 1 + names.idxOf n

variable {names : List Nat}

lemma shrink_le (h : n ∈ names) : shrink k names n ≤ k + names.length := by
  have := List.idxOf_lt_length_of_mem h
  unfold shrink
  split_ifs <;> omega

lemma shrink_ne_zero (h : n ≠ 0) : shrink k names n ≠ 0 := by
  unfold shrink
  split_ifs <;> omega

lemma shrink_eq_iff_of_le (hm : m ≤ k) : shrink k names n = m ↔ n = m := by
  unfold shrink
  split_ifs <;> omega

lemma shrink_inj (hn : n ∈ names) : shrink k names n = shrink k names m ↔ n = m := by
  constructor
  · intro heq
    unfold shrink at heq
    split_ifs at heq
    · exact heq
    · omega
    · omega
    · exact (List.idxOf_inj hn).mp (by omega)
  · rintro rfl
    rfl

end Temper.Renumber
