import Mathlib

/-!
# Recency

The distinct keys of a history of writings in the order of their last writing, and what the first
of them are after one more writing. A cache that keeps the latest keys holds a front part of this
order; a cache that drops its oldest entry finds it as the first with the least stamp; a cache with
a budget drops the shortest front part that makes room.
-/

namespace Temper.Recency

section Order

variable {K T : Type*} [DecidableEq K]

/-- A writing moves its key to the front, with its stamp. -/
def touch (w : K × T) (ws : List (K × T)) : List (K × T) :=
  w :: ws.filter fun v => v.1 ≠ w.1

/-- The keys of a history, the last written first, each with the stamp of its last writing. -/
def recent (history : List (K × T)) : List (K × T) :=
  history.foldl (fun ws w => touch w ws) []

/-- The place of a key in this order: how many other keys have been written since. -/
def rank (history : List (K × T)) (k : K) : Nat := ((recent history).map Prod.fst).idxOf k

@[simp] lemma recent_nil : recent ([] : List (K × T)) = [] := rfl

@[simp] lemma recent_append_singleton (history : List (K × T)) (w : K × T) :
    recent (history ++ [w]) = touch w (recent history) := by
  simp [recent]

@[simp] lemma mem_touch {w v : K × T} {ws : List (K × T)} :
    v ∈ touch w ws ↔ v = w ∨ v ∈ ws ∧ v.1 ≠ w.1 := by
  simp [touch]

lemma nodup_touch {ws : List (K × T)} (h : (ws.map Prod.fst).Nodup) (w : K × T) :
    ((touch w ws).map Prod.fst).Nodup := by
  rw [touch, List.map_cons, List.nodup_cons]
  refine ⟨?_, h.sublist (List.filter_sublist.map _)⟩
  simp

lemma nodup_recent (history : List (K × T)) : ((recent history).map Prod.fst).Nodup := by
  induction history using List.reverseRecOn with
  | nil => simp
  | append_singleton history w ih =>
    rw [recent_append_singleton]
    exact nodup_touch ih w

omit [DecidableEq K] in
/-- A key has one stamp in the order. -/
lemma eq_of_mem_of_mem {ws : List (K × T)} (h : (ws.map Prod.fst).Nodup) {v v' : K × T}
    (hv : v ∈ ws) (hv' : v' ∈ ws) (heq : v.1 = v'.1) : v = v' :=
  List.inj_on_of_nodup_map h hv hv' heq

variable {history : List (K × T)}

lemma mem_of_mem_recent {v : K × T} (h : v ∈ recent history) : v ∈ history := by
  induction history using List.reverseRecOn with
  | nil => exact h
  | append_singleton history w ih =>
    rw [recent_append_singleton, mem_touch] at h
    obtain rfl | ⟨h, -⟩ := h
    · simp
    · exact List.mem_append_left _ (ih h)

/-- Where no key is written twice, the order is the history backwards. -/
lemma recent_of_nodup (h : (history.map Prod.fst).Nodup) : recent history = history.reverse := by
  induction history using List.reverseRecOn with
  | nil => rfl
  | append_singleton history w ih =>
    rw [List.map_append, List.nodup_append] at h
    obtain ⟨hleft, -, hnew⟩ := h
    rw [recent_append_singleton, ih hleft, touch, List.reverse_append, List.reverse_singleton,
      List.singleton_append]
    congr 1
    apply List.filter_eq_self.mpr
    intro v hv
    have := hnew v.1 (List.mem_map_of_mem (List.mem_reverse.mp hv)) w.1 (by simp)
    simpa using this

/-- Later stamps stand in front when the history's stamps never decrease. -/
lemma pairwise_recent [Preorder T] (h : history.Pairwise fun v w => v.2 ≤ w.2) :
    (recent history).Pairwise fun v w => w.2 ≤ v.2 := by
  induction history using List.reverseRecOn with
  | nil => exact List.Pairwise.nil
  | append_singleton history w ih =>
    rw [List.pairwise_append] at h
    obtain ⟨hleft, -, hlast⟩ := h
    rw [recent_append_singleton, touch, List.pairwise_cons]
    refine ⟨?_, (ih hleft).filter _⟩
    intro v hv
    exact hlast v (mem_of_mem_recent (List.mem_of_mem_filter hv)) w (by simp)

/-! ### The first keys of the order after a writing -/

lemma filter_eq_self_of_not_mem {ws : List (K × T)} {k : K} (h : k ∉ ws.map Prod.fst) :
    (ws.filter fun v => v.1 ≠ k) = ws := by
  apply List.filter_eq_self.mpr
  intro v hv
  have hne : v.1 ≠ k := fun heq => h (heq ▸ List.mem_map_of_mem hv)
  simpa using hne

/-- Taking out a key that is among the first makes room for one more. -/
lemma take_filter_of_mem {ws : List (K × T)} (h : (ws.map Prod.fst).Nodup) {k : K} {n : Nat}
    (hmem : k ∈ (ws.take (n + 1)).map Prod.fst) :
    (ws.filter fun v => v.1 ≠ k).take n = (ws.take (n + 1)).filter fun v => v.1 ≠ k := by
  induction ws generalizing n with
  | nil => simp at hmem
  | cons v ws ih =>
    rw [List.map_cons, List.nodup_cons] at h
    rw [List.take_succ_cons] at hmem ⊢
    by_cases hkey : v.1 = k
    · have hrest : k ∉ ws.map Prod.fst := hkey ▸ h.1
      have hfirst : k ∉ (ws.take n).map Prod.fst := fun hk =>
        hrest ((List.take_sublist n ws).map Prod.fst |>.subset hk)
      rw [List.filter_cons_of_neg (by simpa using hkey),
        List.filter_cons_of_neg (by simpa using hkey), filter_eq_self_of_not_mem hrest,
        filter_eq_self_of_not_mem hfirst]
    · rw [List.map_cons, List.mem_cons] at hmem
      have hlater : k ∈ (ws.take n).map Prod.fst := hmem.resolve_left (Ne.symm hkey)
      rw [List.filter_cons_of_pos (by simpa using hkey),
        List.filter_cons_of_pos (by simpa using hkey)]
      cases n with
      | zero => simp at hlater
      | succ n => rw [List.take_succ_cons, ih h.2 hlater]

/-- Taking out a key that is not among the first leaves them as they are. -/
lemma take_filter_of_not_mem {ws : List (K × T)} {k : K} {n : Nat}
    (hmem : k ∉ (ws.take n).map Prod.fst) :
    (ws.filter fun v => v.1 ≠ k).take n = ws.take n := by
  rw [← List.take_append_drop n ws, List.filter_append, filter_eq_self_of_not_mem hmem,
    List.take_append_drop]
  by_cases hlength : n ≤ ws.length
  · rw [List.take_append_of_le_length (by simp [hlength]), List.take_take, min_self]
  · have hdrop : ws.drop n = [] := List.drop_eq_nil_of_le (by omega)
    rw [hdrop, List.filter_nil, List.append_nil, List.take_take, min_self]

/-- A writing of a key that is among the first, or while there are few, pushes none of them out. -/
lemma take_touch {ws : List (K × T)} (h : (ws.map Prod.fst).Nodup) {w : K × T} {n : Nat}
    (hroom : ws.length < n ∨ w.1 ∈ (ws.take n).map Prod.fst) :
    (touch w ws).take n = touch w (ws.take n) := by
  obtain hshort | hmem := hroom
  · have hlength : (touch w ws).length ≤ n := by
      have := List.length_filter_le (fun v => decide (v.1 ≠ w.1)) ws
      simp only [touch, List.length_cons]
      omega
    rw [List.take_of_length_le hlength, List.take_of_length_le hshort.le]
  · cases n with
    | zero => simp at hmem
    | succ n => rw [touch, touch, List.take_succ_cons, take_filter_of_mem h hmem]

/-- A writing of another key, when there are enough, pushes out the last of them. -/
lemma take_touch_of_not_mem {ws : List (K × T)} {w : K × T} {n : Nat} (hpos : 0 < n)
    (hlength : n ≤ ws.length) (hmem : w.1 ∉ (ws.take n).map Prod.fst) :
    (touch w ws).take n = w :: (ws.take n).dropLast := by
  obtain ⟨m, rfl⟩ : ∃ m, n = m + 1 := ⟨n - 1, by omega⟩
  have hfirst : w.1 ∉ (ws.take m).map Prod.fst := by
    intro hk
    apply hmem
    rw [List.take_add_one, List.map_append]
    exact List.mem_append_left _ hk
  have hlast : (ws.take (m + 1)).dropLast = ws.take m := by
    rw [List.dropLast_eq_take, List.take_take, List.length_take]
    congr 1
    omega
  rw [touch, List.take_succ_cons, take_filter_of_not_mem hfirst, hlast]

@[simp] lemma mem_map_touch {w : K × T} {ws : List (K × T)} {k : K} :
    k ∈ (touch w ws).map Prod.fst ↔ k = w.1 ∨ k ∈ ws.map Prod.fst := by
  by_cases hk : k = w.1
  · simp [touch, hk]
  · simp only [touch, List.map_cons, List.mem_cons, hk, false_or, List.mem_map, List.mem_filter]
    constructor
    · rintro ⟨v, ⟨hv, -⟩, rfl⟩
      exact ⟨v, hv, rfl⟩
    · rintro ⟨v, hv, rfl⟩
      exact ⟨v, ⟨hv, by simpa using hk⟩, rfl⟩

/-- Selecting what stands in front commutes with taking the first. -/
lemma filter_take {α : Type*} {p : α → Bool} {l : List α}
    (h : l.Pairwise fun a b => p b = true → p a = true) (n : Nat) :
    (l.take n).filter p = (l.filter p).take n := by
  induction l generalizing n with
  | nil => simp
  | cons a l ih =>
    rw [List.pairwise_cons] at h
    cases n with
    | zero => simp
    | succ n =>
      rw [List.take_succ_cons]
      by_cases ha : p a = true
      · rw [List.filter_cons_of_pos ha, List.filter_cons_of_pos ha, List.take_succ_cons, ih h.2]
      · have hnone : ∀ b ∈ l, ¬p b = true := fun b hb hp => ha (h.1 b hb hp)
        rw [List.filter_cons_of_neg ha, List.filter_cons_of_neg ha,
          List.filter_eq_nil_iff.mpr hnone,
          List.filter_eq_nil_iff.mpr fun b hb => hnone b (List.mem_of_mem_take hb), List.take_nil]

/-- What is selected from the front is a front part. -/
lemma filter_prefix_of_pairwise {α : Type*} {p : α → Bool} {l : List α}
    (h : l.Pairwise fun a b => p b = true → p a = true) : l.filter p <+: l := by
  induction l with
  | nil => simp
  | cons a l ih =>
    rw [List.pairwise_cons] at h
    by_cases ha : p a = true
    · rw [List.filter_cons_of_pos ha]
      exact List.prefix_cons_inj a |>.mpr (ih h.2)
    · have hnone : ∀ b ∈ l, ¬p b = true := fun b hb hp => ha (h.1 b hb hp)
      rw [List.filter_cons_of_neg ha, List.filter_eq_nil_iff.mpr hnone]
      exact List.nil_prefix

/-- Of distinct keys, dropping the last drops `k` just when no other stands behind `k`. -/
lemma mem_dropLast_iff_idxOf {ks : List K} (h : ks.Nodup) {k : K} (hk : k ∈ ks) :
    (∀ x, x ∈ ks.dropLast ↔ x ∈ ks ∧ x ≠ k) ↔ ∀ x ∈ ks, ks.idxOf x ≤ ks.idxOf k := by
  obtain ⟨front, last, rfl⟩ : ∃ front last, ks = front ++ [last] :=
    ⟨ks.dropLast, ks.getLast (List.ne_nil_of_mem hk), (List.dropLast_append_getLast _).symm⟩
  have hlast : last ∉ front := by
    intro hmem
    exact (List.nodup_append.mp h).2.2 last hmem last (by simp) rfl
  have hplace : (front ++ [last]).idxOf last = front.length := by
    rw [List.idxOf_append_of_notMem hlast]
    simp
  rw [List.dropLast_concat]
  constructor
  · intro hdrop x hx
    have heq : k = last := by
      by_contra hne
      exact hlast ((hdrop last).mpr ⟨by simp, Ne.symm hne⟩)
    rw [heq, hplace]
    have := List.idxOf_lt_length_of_mem hx
    simp only [List.length_append, List.length_singleton] at this
    omega
  · intro hbehind x
    have heq : k = last := by
      by_contra hne
      have hfront : k ∈ front := by simpa [hne] using hk
      have := hbehind last (by simp)
      rw [hplace, List.idxOf_append_of_mem hfront] at this
      have := List.idxOf_lt_length_of_mem hfront
      omega
    subst heq
    constructor
    · intro hx
      exact ⟨by simp [hx], fun heq => hlast (heq ▸ hx)⟩
    · rintro ⟨hx, hne⟩
      simpa [hne] using hx

/-! ### Dropping one key for another -/

variable {ws : List (K × T)} {w : K × T} {n : Nat} {k : K}

/-- When a key among the first is written again, it alone may be dropped. -/
lemma drop_spares_iff_of_mem (h : (ws.map Prod.fst).Nodup)
    (hmem : w.1 ∈ (ws.take n).map Prod.fst) (hk : k ∈ (ws.take n).map Prod.fst) :
    (∀ x, (x = w.1 ∨ x ∈ (ws.take n).map Prod.fst ∧ x ≠ k) ↔
      x ∈ ((touch w ws).take n).map Prod.fst) ↔ k = w.1 := by
  rw [take_touch h (.inr hmem)]
  simp only [mem_map_touch]
  constructor
  · intro hall
    by_contra hne
    obtain heq | hkept := (hall k).mpr (.inr hk)
    · exact hne heq
    · exact hkept.2 rfl
  · rintro rfl x
    by_cases hx : x = w.1
    · simp [hx]
    · simp [hx]

/-- When a new key is written and there are enough, the last of the first is to be dropped. -/
lemma drop_spares_iff_of_not_mem (h : (ws.map Prod.fst).Nodup) (hpos : 0 < n)
    (hlength : n ≤ ws.length) (hmem : w.1 ∉ (ws.take n).map Prod.fst)
    (hk : k ∈ (ws.take n).map Prod.fst) :
    (∀ x, (x = w.1 ∨ x ∈ (ws.take n).map Prod.fst ∧ x ≠ k) ↔
      x ∈ ((touch w ws).take n).map Prod.fst) ↔
      ∀ x ∈ (ws.take n).map Prod.fst,
        ((ws.take n).map Prod.fst).idxOf x ≤ ((ws.take n).map Prod.fst).idxOf k := by
  have hfirst : ((ws.take n).map Prod.fst).Nodup := h.sublist ((List.take_sublist _ _).map _)
  rw [take_touch_of_not_mem hpos hlength hmem, ← mem_dropLast_iff_idxOf hfirst hk,
    List.map_cons, List.map_dropLast]
  simp only [List.mem_cons]
  constructor
  · intro hall x
    by_cases hx : x = w.1
    · subst hx
      exact iff_of_false (fun hin => hmem (List.mem_of_mem_dropLast hin)) (fun hin => hmem hin.1)
    · simpa [hx] using (hall x).symm
  · intro hall x
    rw [hall x]

end Order

/-! ### Uses -/

section Uses

variable {K : Type*} [DecidableEq K]

/-- When a key was last used, counted from one, where the uses are listed the first first. -/
def lastUse (uses : List K) (k : K) : Nat := uses.length - uses.reverse.idxOf k

lemma lastUse_le (uses : List K) (k : K) : lastUse uses k ≤ uses.length := Nat.sub_le _ _

@[simp] lemma lastUse_append_self (uses : List K) (k : K) :
    lastUse (uses ++ [k]) k = uses.length + 1 := by
  simp [lastUse]

lemma lastUse_append_of_ne (uses : List K) {k j : K} (h : j ≠ k) :
    lastUse (uses ++ [k]) j = lastUse uses j := by
  simp [lastUse, Ne.symm h]

/-- Keys in the order of their last use, the one used last at the end. -/
def InOrderOfUse (uses : List K) (ks : List K) : Prop :=
  ks.Pairwise fun j k => lastUse uses j < lastUse uses k

lemma InOrderOfUse.nodup {uses ks : List K} (h : InOrderOfUse uses ks) : ks.Nodup :=
  h.imp fun hlt heq => (heq ▸ hlt).ne rfl

lemma InOrderOfUse.sublist {uses ks js : List K} (h : InOrderOfUse uses ks) (hsub : js.Sublist ks) :
    InOrderOfUse uses js := List.Pairwise.sublist hsub h

/-- A use moves its key to the end. -/
lemma InOrderOfUse.append {uses ks : List K} (h : InOrderOfUse uses ks) {k : K} (hk : k ∉ ks) :
    InOrderOfUse (uses ++ [k]) (ks ++ [k]) := by
  have hother : ∀ j ∈ ks, j ≠ k := fun j hj heq => hk (heq ▸ hj)
  refine List.pairwise_append.mpr ⟨?_, List.pairwise_singleton _ _, ?_⟩
  · refine List.Pairwise.imp_of_mem (fun {i j} hi hj hlt => ?_) h
    rwa [lastUse_append_of_ne uses (hother i hi), lastUse_append_of_ne uses (hother j hj)]
  · intro j hj i hi
    obtain rfl := List.mem_singleton.mp hi
    rw [lastUse_append_self, lastUse_append_of_ne uses (hother j hj)]
    have := lastUse_le uses j
    omega

end Uses

/-! ### Making room -/

section Room

variable {K : Type*}

/-- Drop the first keys until the others take no more than `room`. -/
def makeRoom (size : K → Nat) (room : Nat) : List K → List K
  | [] => []
  | k :: ks => if room < ((k :: ks).map size).sum then makeRoom size room ks else k :: ks

lemma makeRoom_congr {size size' : K → Nat} (room : Nat) {ks : List K}
    (h : ∀ k ∈ ks, size k = size' k) : makeRoom size room ks = makeRoom size' room ks := by
  induction ks with
  | nil => rfl
  | cons k ks ih =>
    rw [makeRoom, makeRoom, List.map_congr_left h, ih fun j hj => h j (List.mem_cons_of_mem k hj)]

variable (size : K → Nat) (room : Nat)

/-- The keys that are dropped are the shortest front part whose loss makes room. -/
theorem makeRoom_spec (ks : List K) : ∃ dropped, ks = dropped ++ makeRoom size room ks ∧
    ((makeRoom size room ks).map size).sum ≤ room ∧
    ∀ front back, ks = front ++ back → front.length < dropped.length →
      room < (back.map size).sum := by
  induction ks with
  | nil => exact ⟨[], rfl, Nat.zero_le _, fun front back _ h => absurd h (Nat.not_lt_zero _)⟩
  | cons k ks ih =>
    by_cases hover : room < ((k :: ks).map size).sum
    · obtain ⟨dropped, heq, hroom, hshort⟩ := ih
      rw [makeRoom, if_pos hover]
      refine ⟨k :: dropped, by rw [List.cons_append, ← heq], hroom, ?_⟩
      intro front back hsplit hlength
      cases front with
      | nil => exact (List.nil_append back ▸ hsplit) ▸ hover
      | cons j front =>
        obtain ⟨rfl, htail⟩ := List.cons.inj hsplit
        exact hshort front back htail (Nat.lt_of_succ_lt_succ hlength)
    · rw [makeRoom, if_neg hover]
      exact ⟨[], rfl, not_lt.mp hover, fun front back _ h => absurd h (Nat.not_lt_zero _)⟩

end Room

/-! ### The first entry with the least stamp -/

section Least

variable {A T : Type*} [LinearOrder T] {stamp : A → T}

/-- `min_by_key`: the first of the entries whose stamp is least. -/
def firstLeast (stamp : A → T) : List A → Option A
  | [] => none
  | a :: as => some (as.foldl (fun least b => if stamp b < stamp least then b else least) a)

lemma foldl_least {as : List A} {a least : A}
    (h : as.foldl (fun least b => if stamp b < stamp least then b else least) a = least) :
    ∃ front back, a :: as = front ++ least :: back ∧ (∀ c ∈ front, stamp least < stamp c) ∧
      ∀ c ∈ back, stamp least ≤ stamp c := by
  induction as generalizing a with
  | nil => exact ⟨[], [], by rw [← h]; rfl, by simp, by simp⟩
  | cons b as ih =>
    rw [List.foldl_cons] at h
    by_cases hlt : stamp b < stamp a
    · rw [if_pos hlt] at h
      obtain ⟨front, back, hsplit, hfront, hback⟩ := ih h
      refine ⟨a :: front, back, by rw [hsplit, List.cons_append], ?_, hback⟩
      have hb : stamp least ≤ stamp b := by
        have hb : b ∈ front ++ least :: back := hsplit ▸ List.mem_cons_self
        obtain hb | hb := List.mem_append.mp hb
        · exact (hfront b hb).le
        · obtain rfl | hb := List.mem_cons.mp hb
          · exact le_rfl
          · exact hback b hb
      intro c hc
      obtain rfl | hc := List.mem_cons.mp hc
      · exact lt_of_le_of_lt hb hlt
      · exact hfront c hc
    · rw [if_neg hlt] at h
      obtain ⟨front, back, hsplit, hfront, hback⟩ := ih h
      cases front with
      | nil =>
        obtain ⟨rfl, rfl⟩ := List.cons.inj hsplit
        refine ⟨[], b :: as, rfl, by simp, ?_⟩
        intro c hc
        obtain rfl | hc := List.mem_cons.mp hc
        · exact not_lt.mp hlt
        · exact hback c hc
      | cons a' front =>
        obtain ⟨rfl, rfl⟩ := List.cons.inj hsplit
        refine ⟨a :: b :: front, back, rfl, ?_, hback⟩
        have ha := hfront a List.mem_cons_self
        intro c hc
        obtain rfl | hc := List.mem_cons.mp hc
        · exact ha
        · obtain rfl | hc := List.mem_cons.mp hc
          · exact lt_of_lt_of_le ha (not_lt.mp hlt)
          · exact hfront c (List.mem_cons_of_mem _ hc)

/-- An entry with the least stamp that stands before the others with that stamp. -/
def IsFirstLeast (stamp : A → T) (before : A → A → Prop) (as : List A) (a : A) : Prop :=
  a ∈ as ∧ ∀ b ∈ as, b ≠ a → stamp a < stamp b ∨ stamp a = stamp b ∧ before a b

lemma isFirstLeast_of_eq_some {before : A → A → Prop} {as : List A} (has : as.Pairwise before)
    {a : A} (h : firstLeast stamp as = some a) : IsFirstLeast stamp before as a := by
  cases as with
  | nil => exact absurd h (by simp [firstLeast])
  | cons b bs =>
    obtain ⟨front, back, hsplit, hfront, hback⟩ := foldl_least (Option.some.inj h)
    rw [hsplit] at has ⊢
    refine ⟨by simp, ?_⟩
    intro c hc hne
    obtain hc | hc := List.mem_append.mp hc
    · exact .inl (hfront c hc)
    · obtain rfl | hc := List.mem_cons.mp hc
      · exact absurd rfl hne
      · obtain hlt | heq := (hback c hc).lt_or_eq
        · exact .inl hlt
        · have hafter := (List.pairwise_append.mp has).2.1
          exact .inr ⟨heq, (List.pairwise_cons.mp hafter).1 c hc⟩

/-- There is one such entry where `before` is an order of the entries. -/
lemma IsFirstLeast.unique {before : A → A → Prop} (hasymm : ∀ a b, before a b → ¬before b a)
    {as : List A} {a b : A} (ha : IsFirstLeast stamp before as a)
    (hb : IsFirstLeast stamp before as b) : a = b := by
  by_contra hne
  obtain hlt | ⟨heq, hab⟩ := ha.2 b hb.1 (Ne.symm hne)
  · obtain hlt' | ⟨heq', -⟩ := hb.2 a ha.1 hne
    · exact lt_asymm hlt hlt'
    · exact hlt.ne heq'.symm
  · obtain hlt' | ⟨-, hba⟩ := hb.2 a ha.1 hne
    · exact hlt'.ne heq.symm
    · exact hasymm a b hab hba

end Least

end Temper.Recency
