import Mathlib

/-!
# Sweeps over a list in bounded calls

A sweep visits the items of a list in order, a bounded number of them in each call. What is left is
saved when a call comes to its bound; a call that runs out of items ends the sweep, and the next
one starts over. A call that comes to a failing item stops there and saves nothing.
-/

namespace Sweep

variable {α : Type*}

/-- What a call does: the items it passes on, whether it ends the sweep, and what it leaves. -/
structure Call (α : Type*) where
  passed : List α
  ended : Bool
  next : List α

variable (items : List α) (passes fails : α → Bool)

/-- Visit up to `n` of the items that are left; `start` is what was left at the start of the
call. -/
def visit (start : List α) : Nat → List α → Call α
  | 0, rest => ⟨[], false, rest⟩
  | _ + 1, [] => ⟨[], true, items⟩
  | n + 1, a :: rest =>
    if fails a then ⟨[a].filter passes, false, start⟩
    else
      let call := visit start n rest
      { call with passed := [a].filter passes ++ call.passed }

def call (budget : Nat) (rest : List α) : Call α := visit items passes fails rest budget rest

/-- What is left, what was passed on in the sweep under way, and what was passed on at all. -/
structure State (α : Type*) where
  rest : List α
  sweep : List α
  passed : List α

def step (budget : Nat) (s : State α) : State α :=
  let call := call items passes fails budget s.rest
  { rest := call.next
    sweep := if call.ended then [] else s.sweep ++ call.passed
    passed := s.passed ++ call.passed }

def run (budget : Nat) : Nat → State α
  | 0 => ⟨items, [], []⟩
  | n + 1 => step items passes fails budget (run budget n)

/-- Every item that is to be passed on is, after finitely many calls. -/
def Covers (budget : Nat) : Prop :=
  ∀ a ∈ items, passes a = true → ∃ n, a ∈ (run items passes fails budget n).passed

/-- No item is passed on twice in a sweep. -/
def AtMostOnce (budget : Nat) : Prop :=
  ∀ n, let s := run items passes fails budget n
    (s.sweep ++ (call items passes fails budget s.rest).passed).Nodup

/-- What is to be passed on comes before the call in which the first failing item lies. -/
def FailsLate (budget : Nat) : Prop :=
  ∀ before f after, items = before ++ f :: after → (∀ a ∈ before, fails a = false) →
    fails f = true →
    ∀ a ∈ items.drop (before.length / budget * budget), passes a = false

variable {items passes fails}

/-! ### Calls -/

variable {start : List α}

lemma visit_of_le {n : Nat} {rest : List α} (hn : n ≤ rest.length)
    (hok : ∀ a ∈ rest.take n, fails a = false) :
    visit items passes fails start n rest =
      ⟨(rest.take n).filter passes, false, rest.drop n⟩ := by
  induction n generalizing rest with
  | zero => simp [visit]
  | succ n ih =>
    cases rest with
    | nil => simp at hn
    | cons a rest =>
      simp only [List.take_succ_cons, List.mem_cons, forall_eq_or_imp, List.length_cons] at hok hn
      have hrest := ih (by omega) hok.2
      simp only [visit, hok.1, hrest, Bool.false_eq_true, if_false, ← List.filter_append]
      simp

lemma visit_of_lt {n : Nat} {rest : List α} (hn : rest.length < n)
    (hok : ∀ a ∈ rest, fails a = false) :
    visit items passes fails start n rest = ⟨rest.filter passes, true, items⟩ := by
  induction rest generalizing n with
  | nil =>
    cases n with
    | zero => simp at hn
    | succ n => simp [visit]
  | cons a rest ih =>
    cases n with
    | zero => simp at hn
    | succ n =>
      simp only [List.mem_cons, forall_eq_or_imp, List.length_cons] at hok hn
      have hrest := ih (n := n) (by omega) hok.2
      simp only [visit, hok.1, hrest, Bool.false_eq_true, if_false, ← List.filter_append]
      simp

variable {before after : List α}

lemma visit_of_fails {n : Nat} {f : α} (hn : before.length < n)
    (hok : ∀ a ∈ before, fails a = false) (hf : fails f = true) :
    visit items passes fails start n (before ++ f :: after) =
      ⟨(before ++ [f]).filter passes, false, start⟩ := by
  induction before generalizing n with
  | nil =>
    cases n with
    | zero => simp at hn
    | succ n => simp [visit, hf]
  | cons a before ih =>
    cases n with
    | zero => simp at hn
    | succ n =>
      simp only [List.mem_cons, forall_eq_or_imp, List.length_cons] at hok hn
      have hrest := ih (n := n) (by omega) hok.2
      simp only [List.cons_append, visit, hok.1, hrest, Bool.false_eq_true, if_false,
        ← List.filter_append]
      rfl

lemma passed_visit_sublist (start : List α) (n : Nat) (rest : List α) :
    ((visit items passes fails start n rest).passed).Sublist (rest.filter passes) := by
  induction n generalizing rest with
  | zero => simp [visit]
  | succ n ih =>
    cases rest with
    | nil => simp [visit]
    | cons a rest =>
      have hsplit : (a :: rest).filter passes = [a].filter passes ++ rest.filter passes := by
        rw [← List.filter_append, List.singleton_append]
      rw [visit, hsplit]
      split_ifs
      · simp
      · exact (ih rest).append_left _

/-! ### Runs -/

section Runs

variable {budget : Nat}

/-- Before anything fails and before the items run out, each call takes its share of them. -/
lemma run_eq_take (k : Nat) (hk : k * budget ≤ items.length)
    (hok : ∀ a ∈ items.take (k * budget), fails a = false) :
    run items passes fails budget k =
      ⟨items.drop (k * budget), (items.take (k * budget)).filter passes,
        (items.take (k * budget)).filter passes⟩ := by
  induction k with
  | zero => simp [run]
  | succ k ih =>
    rw [Nat.succ_mul] at hk hok ⊢
    have hsplit : items.take (k * budget + budget) =
        items.take (k * budget) ++ (items.drop (k * budget)).take budget := List.take_add
    rw [hsplit] at hok ⊢
    simp only [List.mem_append] at hok
    have hcall : call items passes fails budget (items.drop (k * budget)) =
        ⟨((items.drop (k * budget)).take budget).filter passes, false,
          (items.drop (k * budget)).drop budget⟩ := by
      apply visit_of_le
      · rw [List.length_drop]
        omega
      · exact fun a ha => hok a (.inr ha)
    rw [run, ih (by omega) fun a ha => hok a (.inl ha)]
    simp [step, hcall]

variable (passes) in
/-- Once something fails, every further call comes to it and no further. -/
lemma run_stuck {f : α} (hbudget : 0 < budget) (hitems : items = before ++ f :: after)
    (hok : ∀ a ∈ before, fails a = false) (hf : fails f = true) (n : Nat) :
    let kept := before.length / budget * budget
    let again := (before.drop kept ++ [f]).filter passes
    let s := run items passes fails budget (before.length / budget + n)
    s.rest = items.drop kept ∧
      call items passes fails budget s.rest = ⟨again, false, items.drop kept⟩ ∧
      s.sweep = (before.take kept).filter passes ++ (List.replicate n again).flatten ∧
      s.passed = s.sweep := by
  intro kept again s
  have hkept : kept ≤ before.length := Nat.div_mul_le_self _ _
  have hlt : before.length - kept < budget := by
    have hmod := Nat.mod_lt before.length hbudget
    have hdiv := Nat.div_add_mod' before.length budget
    omega
  have hdrop : items.drop kept = before.drop kept ++ f :: after := by
    rw [hitems, List.drop_append_of_le_length hkept]
  have htake : items.take kept = before.take kept := by
    rw [hitems, List.take_append_of_le_length hkept]
  have hcall : call items passes fails budget (items.drop kept) =
      ⟨again, false, items.drop kept⟩ := by
    rw [call, hdrop]
    apply visit_of_fails
    · simpa using hlt
    · exact fun a ha => hok a (List.mem_of_mem_drop ha)
    · exact hf
  induction n with
  | zero =>
    have hrun : s = ⟨items.drop kept, (items.take kept).filter passes,
        (items.take kept).filter passes⟩ := by
      apply run_eq_take
      · change kept ≤ items.length
        rw [hitems, List.length_append]
        omega
      · intro a ha
        change a ∈ items.take kept at ha
        rw [htake] at ha
        exact hok a (List.mem_of_mem_take ha)
    rw [hrun, htake]
    simp [hcall]
  | succ n ih =>
    obtain ⟨hrest, -, hsweep, hpassed⟩ := ih
    have hstep : s = step items passes fails budget
      (run items passes fails budget (before.length / budget + n)) := rfl
    rw [hstep]
    simp only [step, hrest, hcall, hpassed, hsweep]
    simp [List.replicate_succ']

variable (passes budget) in
/-- Without failures, what the sweep passed on is what lies before the rest. -/
lemma run_sweep (hok : ∀ a ∈ items, fails a = false) (n : Nat) :
    ∃ done, items = done ++ (run items passes fails budget n).rest ∧
      (run items passes fails budget n).sweep = done.filter passes := by
  induction n with
  | zero => exact ⟨[], by simp [run]⟩
  | succ n ih =>
    obtain ⟨done, hitems, hsweep⟩ := ih
    set s := run items passes fails budget n with hs
    have hrest : ∀ a ∈ s.rest, fails a = false := by
      intro a ha
      apply hok
      rw [hitems]
      exact List.mem_append_right _ ha
    by_cases hn : budget ≤ s.rest.length
    · have hcall : call items passes fails budget s.rest =
          ⟨(s.rest.take budget).filter passes, false, s.rest.drop budget⟩ := by
        apply visit_of_le hn
        exact fun a ha => hrest a (List.mem_of_mem_take ha)
      refine ⟨done ++ s.rest.take budget, ?_, ?_⟩
      · simp only [run, ← hs, step, hcall, List.append_assoc, List.take_append_drop]
        exact hitems
      · simp [run, ← hs, step, hcall, hsweep]
    · have hcall : call items passes fails budget s.rest =
          ⟨s.rest.filter passes, true, items⟩ := by
        apply visit_of_lt (by omega) hrest
      refine ⟨[], ?_, ?_⟩
      · simp [run, ← hs, step, hcall]
      · simp [run, ← hs, step, hcall]

/-- A sweep passes nothing on but what it should. -/
lemma passes_of_mem_sweep {n : Nat} {a : α}
    (ha : a ∈ (run items passes fails budget n).sweep ∨
      a ∈ (call items passes fails budget (run items passes fails budget n).rest).passed) :
    passes a = true := by
  have hcall (rest : List α) (ha : a ∈ (call items passes fails budget rest).passed) :
      passes a = true :=
    (List.mem_filter.mp ((passed_visit_sublist rest budget rest).subset ha)).2
  induction n with
  | zero => exact hcall _ (by simpa [run] using ha)
  | succ n ih =>
    rcases ha with ha | ha
    · simp only [run, step] at ha
      split_ifs at ha
      · cases ha
      · exact ih (List.mem_append.mp ha)
    · exact hcall _ ha

lemma passed_mono (n m : Nat) :
    (run items passes fails budget n).passed ⊆ (run items passes fails budget (n + m)).passed := by
  induction m with
  | zero => exact List.Subset.refl _
  | succ m ih =>
    intro a ha
    have hmem := ih ha
    simp [run, step, hmem]

/-! ### When a sweep does its work -/

lemma exists_first_failing (h : ∃ a ∈ items, fails a = true) :
    ∃ before f after, items = before ++ f :: after ∧ (∀ a ∈ before, fails a = false) ∧
      fails f = true := by
  induction items with
  | nil => simp at h
  | cons a items ih =>
    cases ha : fails a with
    | true => exact ⟨[], a, items, rfl, by simp, ha⟩
    | false =>
      obtain ⟨before, f, after, rfl, hok, hf⟩ := ih (by simpa [ha] using h)
      exact ⟨a :: before, f, after, rfl, by simpa [ha] using hok, hf⟩

/-- A sweep that has passed on part of what lies before the rest repeats nothing. -/
lemma nodup_of_split (hnodup : (items.filter passes).Nodup) (done : List α) {s : State α}
    (hitems : items = done ++ s.rest) (hsweep : s.sweep = done.filter passes) :
    (s.sweep ++ (call items passes fails budget s.rest).passed).Nodup := by
  apply List.Nodup.sublist _ hnodup
  rw [hsweep]
  nth_rewrite 2 [hitems]
  rw [List.filter_append]
  exact (passed_visit_sublist s.rest budget s.rest).append_left _

lemma covers_of_ok (hbudget : 0 < budget) (hok : ∀ a ∈ items, fails a = false) :
    Covers items passes fails budget := by
  intro a ha hpass
  set kept := items.length / budget * budget with hkept
  have hle : kept ≤ items.length := Nat.div_mul_le_self _ _
  have hlt : (items.drop kept).length < budget := by
    have hmod := Nat.mod_lt items.length hbudget
    have hdiv := Nat.div_add_mod' items.length budget
    rw [List.length_drop]
    omega
  have hrun : run items passes fails budget (items.length / budget) =
      ⟨items.drop kept, (items.take kept).filter passes, (items.take kept).filter passes⟩ :=
    run_eq_take _ hle fun a ha => hok a (List.mem_of_mem_take ha)
  have hcall : call items passes fails budget (items.drop kept) =
      ⟨(items.drop kept).filter passes, true, items⟩ :=
    visit_of_lt hlt fun a ha => hok a (List.mem_of_mem_drop ha)
  refine ⟨items.length / budget + 1, ?_⟩
  simp only [run, hrun, step, hcall, ← List.filter_append, List.take_append_drop]
  exact List.mem_filter.mpr ⟨ha, hpass⟩

/-- A call that fails is made again, so it must not pass anything on; and what lies behind the
failing item is never reached. -/
lemma failsLate_of_covers (hbudget : 0 < budget) (hnodup : (items.filter passes).Nodup)
    (hcovers : Covers items passes fails budget) (honce : AtMostOnce items passes fails budget) :
    FailsLate items passes fails budget := by
  intro before f after hitems hok hf a ha
  have hstuck := run_stuck passes hbudget hitems hok hf
  set kept := before.length / budget * budget
  have hle : kept ≤ before.length := Nat.div_mul_le_self _ _
  have hnone : ∀ b ∈ before.drop kept ++ [f], passes b = false := by
    obtain ⟨-, hcall, hsweep, -⟩ := hstuck 1
    have hrepeat := honce (before.length / budget + 1)
    simp only [hcall, hsweep, List.replicate_one, List.flatten_singleton] at hrepeat
    have hdisjoint := List.disjoint_of_nodup_append hrepeat
    intro b hb
    by_contra hpass
    have hmem : b ∈ (before.drop kept ++ [f]).filter passes :=
      List.mem_filter.mpr ⟨hb, by simpa using hpass⟩
    exact hdisjoint (List.mem_append_right _ hmem) hmem
  by_contra hpass
  rw [Bool.not_eq_false] at hpass
  have hdrop : items.drop kept = before.drop kept ++ [f] ++ after := by
    rw [hitems, List.drop_append_of_le_length hle, List.append_assoc, List.singleton_append]
  rw [hdrop] at ha
  rcases List.mem_append.mp ha with ha | ha
  · rw [hnone a ha] at hpass
    cases hpass
  · obtain ⟨n, hn⟩ := hcovers a (by simp [hitems, ha]) hpass
    obtain ⟨-, -, hsweep, hpassed⟩ := hstuck n
    have hmem := passed_mono n (before.length / budget) hn
    have hempty : (before.drop kept ++ [f]).filter passes = [] := by
      rw [List.filter_eq_nil_iff]
      intro b hb
      simp [hnone b hb]
    rw [Nat.add_comm, hpassed, hsweep, hempty] at hmem
    have htake : a ∈ before.take kept := by
      simp at hmem
      exact hmem.1
    have hbefore : a ∈ before.filter passes :=
      List.mem_filter.mpr ⟨List.mem_of_mem_take htake, hpass⟩
    rw [hitems, List.filter_append] at hnodup
    apply List.disjoint_of_nodup_append hnodup hbefore
    exact List.mem_filter.mpr ⟨List.mem_cons_of_mem _ ha, hpass⟩

/-- When all that matters comes before the call that fails, that call may be made for ever. -/
lemma covers_of_fails {f : α} (hbudget : 0 < budget) (hnodup : (items.filter passes).Nodup)
    (hitems : items = before ++ f :: after) (hok : ∀ a ∈ before, fails a = false)
    (hf : fails f = true)
    (hnothing : ∀ a ∈ items.drop (before.length / budget * budget), passes a = false) :
    Covers items passes fails budget ∧ AtMostOnce items passes fails budget := by
  have hstuck := run_stuck passes hbudget hitems hok hf
  set kept := before.length / budget * budget
  have hle : kept ≤ before.length := Nat.div_mul_le_self _ _
  have htake : items.take kept = before.take kept := by
    rw [hitems, List.take_append_of_le_length hle]
  have hnone : (before.drop kept ++ [f]).filter passes = [] := by
    rw [List.filter_eq_nil_iff]
    intro a ha
    have hdrop : a ∈ items.drop kept := by
      rw [hitems, List.drop_append_of_le_length hle]
      simp only [List.mem_append, List.mem_cons] at ha ⊢
      tauto
    simp [hnothing a hdrop]
  constructor
  · intro a ha hpass
    obtain ⟨-, -, hsweep, hpassed⟩ := hstuck 0
    rw [Nat.add_zero] at hsweep hpassed
    refine ⟨before.length / budget, ?_⟩
    rw [← List.take_append_drop kept items] at ha
    rcases List.mem_append.mp ha with ha | ha
    · rw [hpassed, hsweep, ← htake]
      simpa using ⟨ha, hpass⟩
    · rw [hnothing a ha] at hpass
      cases hpass
  · intro n s
    by_cases hn : n ≤ before.length / budget
    · have hle' : n * budget ≤ kept := Nat.mul_le_mul_right _ hn
      have hrun : s = ⟨items.drop (n * budget), (items.take (n * budget)).filter passes,
          (items.take (n * budget)).filter passes⟩ := by
        apply run_eq_take
        · rw [hitems, List.length_append]
          omega
        · intro a ha
          rw [hitems, List.take_append_of_le_length (by omega)] at ha
          exact hok a (List.mem_of_mem_take ha)
      apply nodup_of_split hnodup (items.take (n * budget))
      · rw [hrun, List.take_append_drop]
      · rw [hrun]
    · obtain ⟨m, rfl⟩ := Nat.exists_eq_add_of_le (Nat.le_of_not_le hn)
      obtain ⟨hrest, -, hsweep, -⟩ := hstuck m
      apply nodup_of_split hnodup (items.take kept)
      · rw [hrest, List.take_append_drop]
      · rw [hsweep, hnone, htake]
        simp

/-- A sweep passes on every item it should, and no item twice, exactly when nothing fails or what
is to be passed on comes before the call in which the first failing item lies. -/
theorem covers_atMostOnce_iff (hbudget : 0 < budget) (hnodup : (items.filter passes).Nodup) :
    Covers items passes fails budget ∧ AtMostOnce items passes fails budget ↔
      FailsLate items passes fails budget := by
  constructor
  · rintro ⟨hcovers, honce⟩
    exact failsLate_of_covers hbudget hnodup hcovers honce
  · intro hlate
    by_cases hfail : ∃ a ∈ items, fails a = true
    · obtain ⟨before, f, after, hitems, hok, hf⟩ := exists_first_failing hfail
      exact covers_of_fails hbudget hnodup hitems hok hf (hlate before f after hitems hok hf)
    · have hok : ∀ a ∈ items, fails a = false := by
        intro a ha
        by_contra h
        exact hfail ⟨a, ha, by simpa using h⟩
      constructor
      · exact covers_of_ok hbudget hok
      · intro n s
        obtain ⟨done, hitems, hsweep⟩ := run_sweep passes budget hok n
        exact nodup_of_split hnodup done hitems hsweep

end Runs

end Sweep
