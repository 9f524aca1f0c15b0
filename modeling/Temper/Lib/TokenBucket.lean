import Mathlib

/-!
# Token buckets

A bucket holds up to `capacity` tokens and a mark, the time of its last refill. A request adds
`rate` tokens for every whole `unit` of time since the mark, moves the mark to its own time whether
or not it is accepted, and takes a token if there is one. Times are integers.

Because whole units are counted from the mark, no interval admits more than its share; but a request
that is refused loses the part of a unit that has passed, so how soon the next one is accepted
depends on it.
-/

namespace TokenBucket

structure Params where
  capacity : Int
  rate : Int
  unit : Int

structure State where
  tokens : Int
  mark : Int

variable (p : Params)

/-- The whole units from the mark to a time; none if the mark is later. -/
def elapsed (s : State) (now : Int) : Int := max ((now - s.mark).tdiv p.unit) 0

def refill (s : State) (now : Int) : State :=
  ⟨min (s.tokens + elapsed p s now * p.rate) p.capacity, now⟩

/-- The state after a request, and whether it was accepted. -/
def request (s : State) (now : Int) : State × Bool :=
  if (refill p s now).tokens ≤ 0 then (refill p s now, false)
  else ({ refill p s now with tokens := (refill p s now).tokens - 1 }, true)

def after (s : State) (times : List Int) : State := times.foldl (fun s now => (request p s now).1) s

/-- The requests of a run with their outcomes. -/
def outcomes (s : State) : List Int → List (Int × Bool)
  | [] => []
  | now :: times => (now, (request p s now).2) :: outcomes (request p s now).1 times

/-- How many requests were accepted from `a` to `b`. -/
def acceptedBetween (a b : Int) (os : List (Int × Bool)) : Nat :=
  (os.filter fun o => o.2 && decide (a ≤ o.1) && decide (o.1 ≤ b)).length

/-- When a request was last accepted. -/
def lastAccepted (os : List (Int × Bool)) : Option Int := ((os.filter (·.2)).getLast?).map (·.1)

/-- A bucket with room for a token that gets at least one in each unit. -/
structure Params.Proper : Prop where
  capacity : 1 ≤ p.capacity
  rate : 1 ≤ p.rate
  unit : 0 < p.unit

/-- There are between none and `capacity` tokens. -/
def Filled (s : State) : Prop := 0 ≤ s.tokens ∧ s.tokens ≤ p.capacity

variable {p} {s : State} {now a b : Int} {times : List Int}

@[simp] lemma mark_request : (request p s now).1.mark = now := by
  unfold request
  split_ifs <;> rfl

@[simp] lemma outcomes_nil : outcomes p s [] = [] := rfl

@[simp] lemma map_fst_outcomes : (outcomes p s times).map (·.1) = times := by
  induction times generalizing s with
  | nil => rfl
  | cons now times ih => rw [outcomes, List.map_cons, ih]

lemma outcomes_append (times' : List Int) : outcomes p s (times ++ times') =
    outcomes p s times ++ outcomes p (after p s times) times' := by
  induction times generalizing s with
  | nil => rfl
  | cons now times ih => rw [List.cons_append, outcomes, ih, outcomes, List.cons_append]; rfl

/-- The front and the back of a run's outcomes are outcomes. -/
lemma eq_outcomes_of_append {os os' : List (Int × Bool)} (h : outcomes p s times = os ++ os') :
    os = outcomes p s (os.map (·.1)) ∧
      os' = outcomes p (after p s (os.map (·.1))) (os'.map (·.1)) := by
  have htimes : times = os.map (·.1) ++ os'.map (·.1) := by
    rw [← List.map_append, ← h, map_fst_outcomes]
  rw [htimes, outcomes_append] at h
  have hlength : ∀ (s : State) (times : List Int), (outcomes p s times).length = times.length := by
    intro s times
    rw [← List.length_map (·.1), map_fst_outcomes]
  obtain ⟨hfront, hback⟩ := List.append_inj h (by rw [hlength, List.length_map])
  exact ⟨hfront.symm, hback.symm⟩

lemma elapsed_nonneg : 0 ≤ elapsed p s now := le_max_right _ _

/-- Whole units are counted as the floor of the time that has passed. -/
lemma elapsed_eq (h : s.mark ≤ now) (hunit : 0 < p.unit) :
    elapsed p s now = (now - s.mark) / p.unit := by
  have hnonneg : 0 ≤ now - s.mark := by omega
  rw [elapsed, Int.tdiv_eq_ediv_of_nonneg hnonneg, max_eq_left]
  exact Int.ediv_nonneg hnonneg hunit.le

lemma Filled.refill (h : Filled p s) (hp : p.Proper) (now : Int) : Filled p (refill p s now) := by
  have hadd : 0 ≤ elapsed p s now * p.rate :=
    mul_nonneg elapsed_nonneg (le_trans zero_le_one hp.rate)
  refine ⟨le_min ?_ (le_trans zero_le_one hp.capacity), min_le_right _ _⟩
  have := h.1
  omega

lemma Filled.request (h : Filled p s) (hp : p.Proper) (now : Int) :
    Filled p (request p s now).1 := by
  have hfull := h.refill hp now
  unfold TokenBucket.request
  split_ifs with hnone
  · exact hfull
  · refine ⟨?_, ?_⟩
    · show 0 ≤ (TokenBucket.refill p s now).tokens - 1
      omega
    · show (TokenBucket.refill p s now).tokens - 1 ≤ p.capacity
      have := hfull.2
      omega

lemma Filled.after (h : Filled p s) (hp : p.Proper) (times : List Int) :
    Filled p (after p s times) := by
  induction times generalizing s with
  | nil => exact h
  | cons now times ih => exact ih (h.request hp now)

/-! ### No interval admits more than its share -/

lemma acceptedBetween_cons (o : Int × Bool) (os : List (Int × Bool)) :
    acceptedBetween a b (o :: os) =
      (if o.2 = true ∧ a ≤ o.1 ∧ o.1 ≤ b then 1 else 0) + acceptedBetween a b os := by
  unfold acceptedBetween
  rw [List.filter_cons]
  by_cases h : o.2 = true ∧ a ≤ o.1 ∧ o.1 ≤ b
  · simp [h, add_comm]
  · rw [if_neg h, if_neg (by simpa [and_assoc] using h), zero_add]

/-- Of requests that are all made after `b`, none is accepted until then. -/
lemma acceptedBetween_of_lt (hsorted : (now :: times).Pairwise (· ≤ ·)) (hb : b < now) :
    acceptedBetween a b (outcomes p s (now :: times)) = 0 := by
  rw [acceptedBetween, List.length_eq_zero_iff, List.filter_eq_nil_iff]
  intro o ho
  have hmem : o.1 ∈ now :: times := by
    rw [← @map_fst_outcomes p s (now :: times)]
    exact List.mem_map_of_mem ho
  have hlater : now ≤ o.1 := by
    rcases List.mem_cons.mp hmem with heq | hmem
    · exact heq.ge
    · exact (List.pairwise_cons.mp hsorted).1 o.1 hmem
  simp [not_le.mpr (lt_of_lt_of_le hb hlater)]

lemma acceptedBetween_outcomes_cons_le :
    (acceptedBetween a b (outcomes p s (now :: times)) : Int) ≤
      (if (request p s now).2 = true then 1 else 0) +
        acceptedBetween a b (outcomes p (request p s now).1 times) := by
  rw [outcomes, acceptedBetween_cons, Nat.cast_add]
  apply add_le_add_left
  split_ifs <;> simp_all

/-- A request takes the token it is accepted for. -/
lemma tokens_request (s : State) (now : Int) :
    (request p s now).1.tokens + (if (request p s now).2 = true then 1 else 0) =
      (refill p s now).tokens := by
  unfold request
  split_ifs <;> simp_all

lemma ediv_add_ediv_le {x y u : Int} (hu : 0 < u) : x / u + y / u ≤ (x + y) / u := by
  rw [Int.le_ediv_iff_mul_le hu, add_mul]
  exact add_le_add (Int.ediv_mul_le x hu.ne') (Int.ediv_mul_le y hu.ne')

/-- The tokens there are and those that come until `b` bound what is accepted until then. -/
lemma acceptedBetween_le_tokens (hp : p.Proper) (h : Filled p s)
    (hsorted : (s.mark :: times).Pairwise (· ≤ ·)) (hb : s.mark ≤ b) :
    (acceptedBetween a b (outcomes p s times) : Int) ≤
      s.tokens + p.rate * ((b - s.mark) / p.unit) := by
  have hrate : 0 ≤ p.rate := le_trans zero_le_one hp.rate
  induction times generalizing s with
  | nil =>
    have : 0 ≤ p.rate * ((b - s.mark) / p.unit) :=
      mul_nonneg hrate (Int.ediv_nonneg (by omega) hp.unit.le)
    have := h.1
    simp only [outcomes_nil, acceptedBetween, List.filter_nil, List.length_nil, Nat.cast_zero]
    omega
  | cons now times ih =>
    rw [List.pairwise_cons] at hsorted
    obtain ⟨hfirst, hsorted⟩ := hsorted
    have hmark : s.mark ≤ now := hfirst now List.mem_cons_self
    by_cases hnow : now ≤ b
    · have hrest := ih (h.request hp now) (by rwa [mark_request]) (by rwa [mark_request])
      rw [mark_request] at hrest
      have htokens := @tokens_request p s now
      have hrefill : (refill p s now).tokens ≤ s.tokens + elapsed p s now * p.rate :=
        min_le_left _ _
      have hfloor : elapsed p s now + (b - now) / p.unit ≤ (b - s.mark) / p.unit := by
        rw [elapsed_eq hmark hp.unit]
        have := @ediv_add_ediv_le (now - s.mark) (b - now) p.unit hp.unit
        rwa [sub_add_sub_cancel'] at this
      have hscaled := mul_le_mul_of_nonneg_left hfloor hrate
      rw [mul_add, mul_comm p.rate (elapsed p s now)] at hscaled
      have hhead := @acceptedBetween_outcomes_cons_le p s now a b times
      omega
    · have hnone := @acceptedBetween_of_lt p s now a b times hsorted (not_le.mp hnow)
      have : 0 ≤ p.rate * ((b - s.mark) / p.unit) :=
        mul_nonneg hrate (Int.ediv_nonneg (by omega) hp.unit.le)
      have := h.1
      rw [hnone, Nat.cast_zero]
      omega

/-- In an interval no more requests are accepted than the capacity and what is refilled in it. -/
theorem acceptedBetween_le (hp : p.Proper) (h : Filled p s) (hsorted : times.Pairwise (· ≤ ·))
    (hab : a ≤ b) : (acceptedBetween a b (outcomes p s times) : Int) ≤
      p.capacity + p.rate * ((b - a) / p.unit) := by
  have hrate : 0 ≤ p.rate := le_trans zero_le_one hp.rate
  have hshare : 0 ≤ p.rate * ((b - a) / p.unit) :=
    mul_nonneg hrate (Int.ediv_nonneg (by omega) hp.unit.le)
  have hcapacity := hp.capacity
  induction times generalizing s with
  | nil =>
    simp only [outcomes_nil, acceptedBetween, List.filter_nil, List.length_nil, Nat.cast_zero]
    omega
  | cons now times ih =>
    have hrest := List.pairwise_cons.mp hsorted
    by_cases hbefore : now < a
    · rw [outcomes, acceptedBetween_cons, if_neg (by dsimp only; omega), zero_add]
      exact ih (h.request hp now) hrest.2
    · by_cases hnow : now ≤ b
      · -- the first request in the interval finds no more than the capacity
        have hlater := @acceptedBetween_le_tokens p (request p s now).1 a b times hp
          (h.request hp now) (by rwa [mark_request]) (by rwa [mark_request])
        rw [mark_request] at hlater
        have htokens := @tokens_request p s now
        have hfull := (h.refill hp now).2
        have hfloor : (b - now) / p.unit ≤ (b - a) / p.unit :=
          Int.ediv_le_ediv hp.unit (by omega)
        have hscaled := mul_le_mul_of_nonneg_left hfloor hrate
        have hhead := @acceptedBetween_outcomes_cons_le p s now a b times
        omega
      · rw [@acceptedBetween_of_lt p s now a b times hsorted (not_le.mp hnow), Nat.cast_zero]
        omega

/-! ### When a request is accepted -/

lemma accepted_iff : (request p s now).2 = true ↔ 0 < (refill p s now).tokens := by
  unfold request
  split_ifs with h
  · simp [h]
  · simpa using h

/-- A request a unit after the one before it is accepted. -/
lemma accepted_of_unit_le (hp : p.Proper) (h : Filled p s) (hnow : s.mark + p.unit ≤ now) :
    (request p s now).2 = true := by
  have hunit := hp.unit
  have helapsed : 1 ≤ elapsed p s now := by
    rw [elapsed_eq (by omega) hp.unit, Int.le_ediv_iff_mul_le hp.unit]
    omega
  have hadd : 1 ≤ elapsed p s now * p.rate := by
    have := mul_le_mul helapsed hp.rate zero_le_one (le_trans zero_le_one helapsed)
    rwa [one_mul] at this
  have htokens := h.1
  have hcapacity := hp.capacity
  rw [accepted_iff]
  exact lt_min (by omega) (by omega)

/-- With no tokens left, a request less than a unit after the one before it is refused. -/
lemma refused_of_lt_unit (hp : p.Proper) (hnone : s.tokens ≤ 0) (hmark : s.mark ≤ now)
    (hnow : now < s.mark + p.unit) : (request p s now).2 = false := by
  have helapsed : elapsed p s now = 0 := by
    rw [elapsed_eq hmark hp.unit]
    exact Int.ediv_eq_zero_of_lt (by omega) (by omega)
  rw [Bool.eq_false_iff, Ne, accepted_iff, not_lt]
  have : (refill p s now).tokens ≤ s.tokens + elapsed p s now * p.rate := min_le_left _ _
  rw [helapsed, zero_mul, add_zero] at this
  omega

lemma tokens_of_refused (h : (request p s now).2 = false) : (request p s now).1.tokens ≤ 0 := by
  unfold request at h ⊢
  split_ifs at h ⊢ with hnone
  · exact hnone

lemma lastAccepted_append_singleton (os : List (Int × Bool)) (o : Int × Bool) :
    lastAccepted (os ++ [o]) = if o.2 = true then some o.1 else lastAccepted os := by
  rw [lastAccepted, List.filter_append, List.filter_singleton]
  cases o.2 <;> simp [lastAccepted]

/-- A request that is a unit or more after the last accepted one is accepted just when it is that
long after the last request too. -/
theorem accepted_iff_of_lastAccepted (hp : p.Proper) (h : Filled p s) {last previous : Int}
    (hlast : lastAccepted (outcomes p s (times ++ [previous])) = some last)
    (hprevious : previous ≤ now) (hnow : last + p.unit ≤ now) :
    (request p (after p s (times ++ [previous])) now).2 = true ↔ previous + p.unit ≤ now := by
  have hafter : after p s (times ++ [previous]) = (request p (after p s times) previous).1 := by
    simp [after]
  have hfilled := h.after hp times
  rw [hafter]
  constructor
  · intro haccepted
    by_contra hsoon
    have hrefused : (request p (after p s times) previous).2 = false := by
      rw [Bool.eq_false_iff]
      intro htrue
      rw [outcomes_append, outcomes, outcomes_nil, lastAccepted_append_singleton, if_pos htrue]
        at hlast
      obtain rfl := Option.some.inj hlast
      exact hsoon hnow
    have hagain : (request p (request p (after p s times) previous).1 now).2 = false := by
      apply refused_of_lt_unit hp (tokens_of_refused hrefused)
      · rwa [mark_request]
      · rwa [mark_request, ← not_le]
    rw [hagain] at haccepted
    cases haccepted
  · intro hlong
    exact accepted_of_unit_le hp (hfilled.request hp previous) (by rwa [mark_request])

end TokenBucket
