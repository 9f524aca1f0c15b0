import Mathlib

/-!
# Paging through a listing

A listing is read in pages: each request names the last entry of the page before, and an empty page
ends the reading. A page holds the entries beyond the cursor in the order of the rows, cut to a
limit. Whether the pages hold every row once depends on how the order of the rows and the order of
the cursors fit.
-/

namespace Paging

variable {κ : Type*}

/-- What is read from a cursor on, page by page, until a page is empty. -/
inductive Pages (page : Option κ → List κ) : Option κ → List κ → Prop
  | done {after : Option κ} (h : page after = []) : Pages page after []
  | more {after : Option κ} {entries : List κ} {last : κ} {rest : List κ}
      (h : page after = entries ++ [last]) (hrest : Pages page (some last) rest) :
      Pages page after (entries ++ [last] ++ rest)

/-- Reading from the start comes to an end and meets every entry exactly once. -/
def Exhaustive (page : Option κ → List κ) (ids : Set κ) : Prop :=
  ∃ listed, Pages page none listed ∧ listed.Nodup ∧ ∀ a, a ∈ listed ↔ a ∈ ids

/-- What the pages carry from cursor to cursor holds of everything that is read. -/
lemma Pages.invariant {page : Option κ → List κ} {after : Option κ} {listed : List κ}
    (h : Pages page after listed) (P : κ → Prop)
    (hstep : ∀ after, (∀ c ∈ after, P c) → ∀ a ∈ page after, P a) (hafter : ∀ c ∈ after, P c) :
    ∀ a ∈ listed, P a := by
  induction h with
  | done => simp
  | more hpage _ ih =>
    rename_i after entries last rest hrest
    have hentries : ∀ a ∈ entries ++ [last], P a := by
      intro a ha
      apply hstep after hafter
      rwa [hpage]
    intro a ha
    rcases List.mem_append.mp ha with ha | ha
    · exact hentries a ha
    · apply ih _ a ha
      simpa using hentries last (by simp)

variable {after : Option κ}

/-- The first page is read. -/
lemma Pages.sublist_of_none {page : Option κ → List κ} {listed : List κ}
    (h : Pages page after listed) : (page after).Sublist listed := by
  cases h with
  | done hpage => simp [hpage]
  | more hpage => simp [hpage]

/-- An entry that no page shows is not read. -/
lemma Exhaustive.exists_page {page : Option κ → List κ} {ids : Set κ} (h : Exhaustive page ids)
    {a : κ} (ha : a ∈ ids) : ∃ after, a ∈ page after := by
  by_contra hnone
  obtain ⟨listed, hpages, -, hmem⟩ := h
  have hne : ∀ b ∈ listed, b ≠ a := by
    apply hpages.invariant (· ≠ a)
    · rintro after - b hb rfl
      exact hnone ⟨after, hb⟩
    · simp
  exact hne a ((hmem a).mpr ha) rfl

/-! ### Rows beyond a cursor -/

variable [LinearOrder κ]

/-- The rows beyond a cursor, in the order of the rows. -/
def beyond (rows : List κ) (after : Option κ) : List κ := rows.filter fun r => after.all (· < r)

def page (rows : List κ) (limit : Nat) (after : Option κ) : List κ := (beyond rows after).take limit

@[simp] lemma beyond_none (rows : List κ) : beyond rows none = rows := by simp [beyond]

/-- Rows renamed along an order embedding. -/
lemma page_map {μ : Type*} [LinearOrder μ] {f : κ → μ} (hf : ∀ a b, f a < f b ↔ a < b)
    (rows : List κ) (limit : Nat) (after : Option κ) :
    page (rows.map f) limit (after.map f) = (page rows limit after).map f := by
  have hall : (fun r => (after.map f).all (· < r)) ∘ f = fun r => after.all (· < r) := by
    funext r
    cases after with
    | none => rfl
    | some c => simp [hf]
  rw [page, beyond, List.filter_map, hall, ← List.map_take, page, beyond]

lemma beyond_getLast {done rest : List κ} {last : κ}
    (h : (done ++ last :: rest).Pairwise (· < ·)) :
    beyond (done ++ last :: rest) (some last) = rest := by
  rw [List.pairwise_append, List.pairwise_cons] at h
  obtain ⟨-, ⟨hrest, -⟩, hdone⟩ := h
  have hbefore : done.filter (fun r => decide (last < r)) = [] := by
    rw [List.filter_eq_nil_iff]
    intro r hr
    simpa using (hdone r hr last (by simp)).le
  have hafter : rest.filter (fun r => decide (last < r)) = rest := by
    rw [List.filter_eq_self]
    intro r hr
    simpa using hrest r hr
  simp [beyond, hbefore, hafter]

/-- From a cursor inside increasing rows, the reading meets what is left. -/
lemma pages_of_increasing {rows : List κ} (h : rows.Pairwise (· < ·)) {limit : Nat}
    (hlimit : 1 ≤ limit) (done rest : List κ) (hrows : rows = done ++ rest) (after : Option κ)
    (hafter : beyond rows after = rest) : Pages (page rows limit) after rest := by
  induction hn : rest.length using Nat.strong_induction_on generalizing done rest after with
  | _ n ih =>
    subst hn
    cases hpage : (rest.take limit).reverse with
    | nil =>
      have hnil : rest = [] := by
        have htake : rest.take limit = [] := by simpa using hpage
        rcases List.take_eq_nil_iff.mp htake with hzero | hnil
        · omega
        · exact hnil
      subst hnil
      apply Pages.done
      rw [page, hafter]
      simp
    | cons last entries =>
      have htake : rest.take limit = entries.reverse ++ [last] := by
        rw [← List.reverse_reverse (rest.take limit), hpage, List.reverse_cons]
      have hrest : rest = entries.reverse ++ [last] ++ rest.drop limit := by
        rw [← htake, List.take_append_drop]
      rw [hrest]
      apply Pages.more
      · rw [page, hafter, htake]
      · have hrows' : rows = (done ++ entries.reverse) ++ last :: rest.drop limit := by
          rw [hrows]
          nth_rewrite 1 [hrest]
          simp
        apply ih _ _ (done ++ entries.reverse ++ [last]) _ _ _ _ rfl
        · have hlength := congrArg List.length htake
          simp only [List.length_take, List.length_append, List.length_reverse,
            List.length_singleton] at hlength
          rw [List.length_drop]
          omega
        · rw [hrows']
          simp
        · rw [hrows'] at h ⊢
          exact beyond_getLast h

/-- A page of the rows beyond a cursor has the rows as its entries, up to the limit. -/
lemma mem_page_one {rows : List κ} {a : κ} (h : a ∈ page rows 1 after) :
    ∃ rest, beyond rows after = a :: rest := by
  unfold page at h
  cases hbeyond : beyond rows after with
  | nil => simp [hbeyond] at h
  | cons b rest =>
    have hab : a = b := by simpa [hbeyond] using h
    exact ⟨rest, by rw [hab]⟩

lemma beyond_sublist {rows entries : List κ} (h : entries.Sublist rows) (after : Option κ) :
    (beyond entries after).Sublist (beyond rows after) := h.filter _

/-- The pages hold every row once, whatever the limit, exactly when the rows stand in the order
of the cursors. -/
theorem exhaustive_page_iff (rows : List κ) :
    (∀ limit, 1 ≤ limit → Exhaustive (page rows limit) {a | a ∈ rows}) ↔
      rows.Pairwise (· < ·) := by
  constructor
  · intro h
    have hnodup : rows.Nodup := by
      obtain ⟨listed, hpages, hlisted, -⟩ := h (rows.length + 1) (by omega)
      have hsub := hpages.sublist_of_none
      rw [page, beyond_none, List.take_of_length_le (by omega)] at hsub
      exact hlisted.sublist hsub
    rw [List.pairwise_iff_forall_sublist]
    intro a b hab
    by_contra hlt
    have hne : a ≠ b := by
      have := hnodup.sublist hab
      simpa using this
    have hba : b < a := lt_of_le_of_ne (not_lt.mp hlt) hne.symm
    -- with one row a page, the row in front hides the smaller one behind it
    obtain ⟨after, hpage⟩ := (h 1 le_rfl).exists_page (hab.subset (by simp) : b ∈ rows)
    obtain ⟨rest, hrest⟩ := mem_page_one hpage
    have hbeyond : [a, b].Sublist (beyond rows after) := by
      have hb : b ∈ beyond rows after := by simp [hrest]
      have hall : after.all (· < b) = true := (List.mem_filter.mp hb).2
      have hpair : beyond [a, b] after = [a, b] := by
        cases after with
        | none => simp
        | some c =>
          have hcb : c < b := by simpa using hall
          simp [beyond, hcb, hcb.trans hba]
      have hsub := beyond_sublist hab after
      rwa [hpair] at hsub
    have hsuffix : (beyond rows after).Nodup := hnodup.filter _
    rw [hrest] at hbeyond hsuffix
    have hmem : b ∈ rest := by
      rcases List.sublist_cons_iff.mp hbeyond with hbeyond | ⟨r, hr, hbeyond⟩
      · exact hbeyond.subset (by simp)
      · obtain ⟨hb, -⟩ := List.cons.inj hr
        exact absurd hb hne
    exact (List.nodup_cons.mp hsuffix).1 hmem
  · intro h limit hlimit
    refine ⟨rows, ?_, h.imp (fun hlt => ne_of_lt hlt), fun a => Iff.rfl⟩
    exact pages_of_increasing h hlimit [] rows rfl none (beyond_none rows)

/-! ### Rows that are left out of a page -/

omit [LinearOrder κ] in
lemma eq_filter_append {rows : List κ} {keep : κ → Bool}
    (h : rows.Pairwise fun a b => keep b → keep a) :
    rows = rows.filter keep ++ rows.filter fun r => !keep r := by
  induction rows with
  | nil => simp
  | cons a rows ih =>
    obtain ⟨ha, hrows⟩ := List.pairwise_cons.mp h
    by_cases hkeep : keep a
    · have hself := ih hrows
      simpa [hkeep] using hself
    · have hnone : ∀ b ∈ rows, keep b = false := by
        intro b hb
        by_contra hkeepb
        exact hkeep (ha b hb (by simpa using hkeepb))
      have hnil : rows.filter keep = [] := by
        rw [List.filter_eq_nil_iff]
        intro b hb
        simp [hnone b hb]
      have hself : (rows.filter fun r => !keep r) = rows := by
        rw [List.filter_eq_self]
        intro b hb
        simp [hnone b hb]
      simp [hkeep, hnil, hself]

/-- Pages that leave rows out after they are cut hold every row kept exactly when no row kept
comes after one left out. -/
theorem exhaustive_filter_page_iff {rows : List κ} (h : rows.Pairwise (· < ·)) (keep : κ → Bool) :
    (∀ limit, 1 ≤ limit →
      Exhaustive (fun after => (page rows limit after).filter keep) {a | a ∈ rows ∧ keep a}) ↔
      rows.Pairwise fun a b => keep b → keep a := by
  constructor
  · intro hex
    rw [List.pairwise_iff_forall_sublist]
    intro a b hab hkeep
    by_contra hdrop
    have hlt : a < b := by
      have hpair := h.sublist hab
      simpa using hpair
    have ha : a ∈ rows := hab.subset (by simp)
    obtain ⟨listed, hpages, -, hmem⟩ := hex 1 le_rfl
    -- no cursor passes the row left out
    have hbefore : ∀ r ∈ listed, r < a := by
      apply hpages.invariant (· < a)
      · intro after hafter r hr
        obtain ⟨hr, hkeepr⟩ := List.mem_filter.mp hr
        obtain ⟨rest, hrest⟩ := mem_page_one hr
        have hbeyond : a ∈ beyond rows after := by
          refine List.mem_filter.mpr ⟨ha, ?_⟩
          cases after with
          | none => rfl
          | some c => simpa using hafter c rfl
        have hsorted : (beyond rows after).Pairwise (· < ·) := h.filter _
        rw [hrest] at hbeyond hsorted
        rcases List.mem_cons.mp hbeyond with rfl | hmem
        · exact absurd hkeepr hdrop
        · exact (List.pairwise_cons.mp hsorted).1 a hmem
      · simp
    have hb : b ∈ listed := (hmem b).mpr ⟨hab.subset (by simp), hkeep⟩
    exact (hbefore b hb).not_gt hlt
  · intro hpre limit hlimit
    have hkept : ∀ after, (page rows limit after).filter keep =
        page (rows.filter keep) limit after := by
      intro after
      conv_lhs => rw [eq_filter_append hpre]
      have hnil : ((beyond (rows.filter fun r => !keep r) after).take
          (limit - (beyond (rows.filter keep) after).length)).filter keep = [] := by
        rw [List.filter_eq_nil_iff]
        intro r hr
        have hmem := List.mem_of_mem_take hr
        simp only [beyond, List.mem_filter] at hmem
        simpa using hmem.1.2
      have hself : ((beyond (rows.filter keep) after).take limit).filter keep =
          (beyond (rows.filter keep) after).take limit := by
        rw [List.filter_eq_self]
        intro r hr
        have hmem := List.mem_of_mem_take hr
        simp only [beyond, List.mem_filter] at hmem
        exact hmem.1.2
      have happend : beyond (rows.filter keep ++ rows.filter fun r => !keep r) after =
          beyond (rows.filter keep) after ++ beyond (rows.filter fun r => !keep r) after := by
        simp [beyond]
      rw [page, happend, List.take_append, List.filter_append, hnil, hself, List.append_nil, page]
    have hids : {a | a ∈ rows ∧ keep a} = {a | a ∈ rows.filter keep} := by
      ext a
      simp
    rw [hids, funext hkept]
    exact (exhaustive_page_iff _).mpr (h.filter _) limit hlimit

/-! ### Pages gathered from blocks of another listing -/

variable {ι : Type*} {rows : List ι} {block : Nat} {name : ι → Option κ}

/-- The names beyond a cursor in the first blocks of the rows. -/
def foundIn (rows : List ι) (block : Nat) (name : ι → Option κ) (after : Option κ) (k : Nat) :
    List κ :=
  beyond ((rows.take (block * k)).filterMap name) after

/-- A page made of the names in as many blocks as it takes to fill it, sorted and cut. -/
def Gathered (rows : List ι) (block : Nat) (name : ι → Option κ) (limit : Nat) (after : Option κ)
    (entries : List κ) : Prop :=
  ∃ k, entries = ((foundIn rows block name after k).insertionSort (· ≤ ·)).take limit ∧
    (limit ≤ (foundIn rows block name after k).length ∨ rows.length ≤ block * k) ∧
    ∀ j < k, (foundIn rows block name after j).length < limit

/-- The names of every block come before those of the blocks after it. -/
def BlocksIncrease (rows : List ι) (block : Nat) (name : ι → Option κ) : Prop :=
  ∀ k, ∀ a ∈ (rows.take (block * k)).filterMap name,
    ∀ b ∈ (rows.drop (block * k)).filterMap name, a < b

lemma mem_beyond {rows : List κ} {a : κ} :
    a ∈ beyond rows after ↔ a ∈ rows ∧ ∀ c ∈ after, c < a := by
  cases after with
  | none => simp
  | some c => simp [beyond]

lemma insertionSort_append {xs ys : List κ} (h : ∀ a ∈ xs, ∀ b ∈ ys, a < b) :
    (xs ++ ys).insertionSort (· ≤ ·) = xs.insertionSort (· ≤ ·) ++ ys.insertionSort (· ≤ ·) := by
  apply List.Perm.eq_of_pairwise' (r := (· ≤ ·))
  · exact List.pairwise_insertionSort _ _
  · rw [List.pairwise_append]
    refine ⟨List.pairwise_insertionSort _ _, List.pairwise_insertionSort _ _, ?_⟩
    intro a ha b hb
    rw [List.mem_insertionSort] at ha hb
    exact (h a ha b hb).le
  · exact (List.perm_insertionSort _ _).trans
      ((List.perm_insertionSort _ _).symm.append (List.perm_insertionSort _ _).symm)

lemma beyond_insertionSort (entries : List κ) (after : Option κ) :
    beyond (entries.insertionSort (· ≤ ·)) after =
      (beyond entries after).insertionSort (· ≤ ·) := by
  apply List.Perm.eq_of_pairwise' (r := (· ≤ ·))
  · exact (List.pairwise_insertionSort _ _).filter _
  · exact List.pairwise_insertionSort _ _
  · exact ((List.perm_insertionSort _ _).filter _).trans (List.perm_insertionSort _ _).symm

/-- Where blocks increase, a gathered page is the page of the sorted names. -/
lemma Gathered.eq_page (hincrease : BlocksIncrease rows block name) {limit : Nat} {entries : List κ}
    (h : Gathered rows block name limit after entries) :
    entries = page ((rows.filterMap name).insertionSort (· ≤ ·)) limit after := by
  obtain ⟨k, rfl, hstop, -⟩ := h
  have hsplit : rows.filterMap name =
      (rows.take (block * k)).filterMap name ++ (rows.drop (block * k)).filterMap name := by
    rw [← List.filterMap_append, List.take_append_drop]
  have hbeyond : beyond (rows.filterMap name) after = foundIn rows block name after k ++
      beyond ((rows.drop (block * k)).filterMap name) after := by
    rw [hsplit]
    simp [foundIn, beyond]
  have hlt : ∀ a ∈ foundIn rows block name after k,
      ∀ b ∈ beyond ((rows.drop (block * k)).filterMap name) after, a < b := by
    intro a ha b hb
    exact hincrease k a (mem_beyond.mp ha).1 b (mem_beyond.mp hb).1
  rw [page, beyond_insertionSort, hbeyond, insertionSort_append hlt]
  rcases hstop with hfull | hend
  · rw [List.take_append_of_le_length]
    rwa [List.length_insertionSort]
  · rw [List.drop_eq_nil_of_le hend]
    simp [beyond]

/-- Gathered pages hold every name once, whatever the limit, exactly when the blocks increase. -/
theorem exhaustive_gathered_iff (hnodup : (rows.filterMap name).Nodup)
    {pages : Nat → Option κ → List κ}
    (hpages : ∀ limit, 1 ≤ limit → ∀ after,
      Gathered rows block name limit after (pages limit after)) :
    (∀ limit, 1 ≤ limit → Exhaustive (pages limit) {a | a ∈ rows.filterMap name}) ↔
      BlocksIncrease rows block name := by
  constructor
  · intro h k a ha b hb
    by_contra hlt
    have hsplit : rows.filterMap name =
        (rows.take (block * k)).filterMap name ++ (rows.drop (block * k)).filterMap name := by
      rw [← List.filterMap_append, List.take_append_drop]
    rw [hsplit] at hnodup
    have hdisjoint := (List.nodup_append.mp hnodup).2.2
    have hba : b < a := lt_of_le_of_ne (not_lt.mp hlt) (hdisjoint a ha b hb).symm
    have hmem : b ∈ rows.filterMap name := by
      rw [hsplit]
      exact List.mem_append_right _ hb
    -- a page of one name stops at the block that holds the greater one
    obtain ⟨after, hpage⟩ := (h 1 le_rfl).exists_page hmem
    obtain ⟨m, heq, -, hmin⟩ := hpages 1 le_rfl after
    rw [heq] at hpage
    have hfound : b ∈ foundIn rows block name after m := by
      have := List.mem_of_mem_take hpage
      rwa [List.mem_insertionSort] at this
    obtain ⟨hnames, hcursor⟩ := mem_beyond.mp hfound
    have hkm : k < m := by
      by_contra hle
      have hsub : (rows.take (block * m)).Sublist (rows.take (block * k)) :=
        List.take_sublist_take_left (Nat.mul_le_mul_left block (not_lt.mp hle))
      exact hdisjoint b ((hsub.filterMap name).subset hnames) b hb rfl
    have hempty : foundIn rows block name after k = [] := by
      rw [← List.length_eq_zero_iff]
      have := hmin k hkm
      omega
    have hfounda : a ∈ foundIn rows block name after k :=
      mem_beyond.mpr ⟨ha, fun c hc => (hcursor c hc).trans hba⟩
    rw [hempty] at hfounda
    cases hfounda
  · intro hincrease limit hlimit
    have heq : pages limit = page ((rows.filterMap name).insertionSort (· ≤ ·)) limit := by
      funext after
      exact (hpages limit hlimit after).eq_page hincrease
    have hids : {a | a ∈ rows.filterMap name} =
        {a | a ∈ (rows.filterMap name).insertionSort (· ≤ ·)} := by
      ext a
      simp
    rw [heq, hids]
    apply (exhaustive_page_iff _).mpr _ limit hlimit
    exact ((List.pairwise_insertionSort (· ≤ ·) _).and
      ((List.perm_insertionSort _ _).nodup_iff.mpr hnodup)).imp fun h => lt_of_le_of_ne h.1 h.2

end Paging
