import Mathlib
import Temper.Lib.Closure

/-!
# Breadth-first search with a depth limit

A search that takes elements from the front of a queue, remembers for every new element where it
was found from and under which label, and does not look further than a limit. It finds exactly the
elements within the limit, and the remembered parents lead back along shortest walks.
-/

namespace BreadthFirst

/-! ### Walks -/

section Walks

variable {α : Type*} {R S : α → α → Prop} {a b c : α} {m n : Nat}

/-- A walk of some number of steps. -/
inductive Walk (R : α → α → Prop) (a : α) : Nat → α → Prop
  | nil : Walk R a 0 a
  | snoc {n : Nat} {b c : α} (h : Walk R a n b) (hstep : R b c) : Walk R a (n + 1) c

lemma Walk.mono (hRS : ∀ b c, R b c → S b c) (h : Walk R a n b) : Walk S a n b := by
  induction h with
  | nil => exact .nil
  | snoc _ hstep ih => exact .snoc ih (hRS _ _ hstep)

lemma exists_walk_iff : (∃ n, Walk R a n b) ↔ Relation.ReflTransGen R a b := by
  constructor
  · rintro ⟨n, h⟩
    induction h with
    | nil => exact .refl
    | snoc _ hstep ih => exact ih.tail hstep
  · intro h
    induction h with
    | refl => exact ⟨0, .nil⟩
    | tail _ hstep ih =>
      obtain ⟨n, h⟩ := ih
      exact ⟨n + 1, .snoc h hstep⟩

/-- The length of the shortest walks. -/
structure Dist (R : α → α → Prop) (a : α) (n : Nat) (b : α) : Prop where
  walk : Walk R a n b
  le : ∀ m, Walk R a m b → n ≤ m

lemma dist_self : Dist R a 0 a := ⟨.nil, fun _ _ => Nat.zero_le _⟩

lemma Dist.unique (h : Dist R a n b) (h' : Dist R a m b) : n = m :=
  le_antisymm (h.le m h'.walk) (h'.le n h.walk)

lemma Walk.exists_dist (h : Walk R a n b) : ∃ m ≤ n, Dist R a m b := by
  classical
  have hex : ∃ m, Walk R a m b := ⟨n, h⟩
  exact ⟨Nat.find hex, Nat.find_min' hex h, Nat.find_spec hex, fun m hm => Nat.find_min' hex hm⟩

/-- The last step of a shortest walk starts where a shortest walk ends. -/
lemma Dist.exists_pred (h : Dist R a (n + 1) c) : ∃ b, Dist R a n b ∧ R b c := by
  have hle := h.le
  obtain ⟨⟩ | ⟨hwalk, hstep⟩ := h.walk
  refine ⟨_, ⟨hwalk, ?_⟩, hstep⟩
  intro m hm
  exact Nat.le_of_succ_le_succ (hle (m + 1) (hm.snoc hstep))

/-- A shortest walk meets no element twice, so it is no longer than a list of all elements that
steps lead to. -/
lemma Dist.le_length {nodes : List α} (hnodes : ∀ b c, R b c → c ∈ nodes) (h : Dist R a n b) :
    n ≤ nodes.length := by
  have hlist : ∃ l : List α, l.Nodup ∧ l.length = n ∧
      ∀ x ∈ l, x ∈ nodes ∧ ∃ k ≤ n, Dist R a k x := by
    induction n generalizing b with
    | zero => exact ⟨[], List.nodup_nil, rfl, by simp⟩
    | succ n ih =>
      obtain ⟨c, hc, hstep⟩ := h.exists_pred
      obtain ⟨l, hnodup, hlength, hl⟩ := ih hc
      refine ⟨b :: l, List.nodup_cons.mpr ⟨?_, hnodup⟩, by simp [hlength], ?_⟩
      · intro hb
        obtain ⟨-, k, hk, hdist⟩ := hl b hb
        have := h.unique hdist
        omega
      · intro x hx
        obtain rfl | hx := List.mem_cons.mp hx
        · exact ⟨hnodes c x hstep, n + 1, le_rfl, h⟩
        · obtain ⟨hmem, k, hk, hdist⟩ := hl x hx
          exact ⟨hmem, k, by omega, hdist⟩
  obtain ⟨l, hnodup, rfl, hl⟩ := hlist
  exact (hnodup.subperm fun x hx => (hl x hx).1).length_le

end Walks

/-! ### The search -/

variable {α ι : Type} [DecidableEq α]

/-- Where the search stands. -/
structure Frontier (α ι : Type) where
  parent : α → Option (α × ι)
  visited : List α
  queue : List (α × Nat)

def start (init : α) : Frontier α ι := ⟨fun _ => none, [init], [(init, 0)]⟩

/-- Follow one labelled edge from an element. -/
def discover (current : α) (depth : Nat) (f : Frontier α ι) (edge : ι × α) : Frontier α ι :=
  if edge.2 ∈ f.visited then f
  else
    { parent := Function.update f.parent edge.2 (some (current, edge.1))
      visited := f.visited ++ [edge.2]
      queue := f.queue ++ [(edge.2, depth + 1)] }

/-- Search until the queue is empty. `none` if the fuel is used up. -/
def search (edges : α → List (ι × α)) (limit : Nat) : Nat → Frontier α ι → Option (Frontier α ι)
  | fuel, f =>
    match f.queue with
    | [] => some f
    | (current, depth) :: rest =>
      match fuel with
      | 0 => none
      | fuel + 1 =>
        if limit ≤ depth then search edges limit fuel { f with queue := rest }
        else search edges limit fuel
          ((edges current).foldl (discover current depth) { f with queue := rest })

variable {edges : α → List (ι × α)} {limit : Nat} {init : α} {f f' : Frontier α ι}

/-- The edges without their labels. -/
def Edge (edges : α → List (ι × α)) (a b : α) : Prop := ∃ label, (label, b) ∈ edges a

/-- What following some edges from an element adds. -/
structure Discovered (current : α) (depth : Nat) (es : List (ι × α)) (f f' : Frontier α ι)
    (news : List α) : Prop where
  visited : f'.visited = f.visited ++ news
  queue : f'.queue = f.queue ++ news.map (·, depth + 1)
  mem_iff : ∀ b, b ∈ news ↔ b ∉ f.visited ∧ ∃ label, (label, b) ∈ es
  nodup : news.Nodup
  parent_new : ∀ b ∈ news, ∃ label, (label, b) ∈ es ∧ f'.parent b = some (current, label)
  parent_old : ∀ b, b ∉ news → f'.parent b = f.parent b

lemma discovered_foldl (current : α) (depth : Nat) (es : List (ι × α)) (f : Frontier α ι) :
    ∃ news, Discovered current depth es f (es.foldl (discover current depth) f) news := by
  induction es generalizing f with
  | nil => exact ⟨[], by simp, by simp, by simp, List.nodup_nil, by simp, fun _ _ => rfl⟩
  | cons edge es ih =>
    obtain ⟨label, b⟩ := edge
    by_cases hb : b ∈ f.visited
    · obtain ⟨news, h⟩ := ih f
      have hsame : discover current depth f (label, b) = f := if_pos hb
      rw [List.foldl_cons, hsame]
      refine ⟨news, h.visited, h.queue, ?_, h.nodup, ?_, h.parent_old⟩
      · intro c
        rw [h.mem_iff]
        refine and_congr_right fun hc => ?_
        have hcb : c ≠ b := fun hcb => hc (hcb ▸ hb)
        simp [hcb]
      · intro c hc
        obtain ⟨label', hmem, hparent⟩ := h.parent_new c hc
        exact ⟨label', List.mem_cons_of_mem _ hmem, hparent⟩
    · obtain ⟨news, h⟩ := ih (discover current depth f (label, b))
      have hstep : discover current depth f (label, b) =
          { parent := Function.update f.parent b (some (current, label))
            visited := f.visited ++ [b]
            queue := f.queue ++ [(b, depth + 1)] } := if_neg hb
      have hvisited := h.visited
      have hqueue := h.queue
      have hmem := h.mem_iff
      have hnew := h.parent_new
      have hold := h.parent_old
      rw [List.foldl_cons]
      rw [hstep] at hvisited hqueue hmem hnew hold ⊢
      have hbnews : b ∉ news := by
        rw [hmem]
        simp
      refine ⟨b :: news, ?_, ?_, ?_, List.nodup_cons.mpr ⟨hbnews, h.nodup⟩, ?_, ?_⟩
      · rw [hvisited, List.append_assoc, List.singleton_append]
      · rw [hqueue, List.append_assoc, List.singleton_append, List.map_cons]
      · intro c
        rw [List.mem_cons, hmem]
        by_cases hcb : c = b
        · subst hcb
          simp [hb]
        · simp [hcb]
      · intro c hc
        obtain rfl | hc := List.mem_cons.mp hc
        · refine ⟨label, List.mem_cons_self, ?_⟩
          exact (hold _ hbnews).trans (Function.update_self _ _ _)
        · obtain ⟨label', hmem', hparent⟩ := hnew c hc
          exact ⟨label', List.mem_cons_of_mem _ hmem', hparent⟩
      · intro c hc
        obtain ⟨hcb, hc⟩ := not_or.mp (List.mem_cons.not.mp hc)
        exact (hold c hc).trans (Function.update_of_ne hcb _ _)

/-! ### Distances -/

/-- What holds whenever the search takes an element from the queue. -/
structure Layered (edges : α → List (ι × α)) (limit : Nat) (init : α) (f : Frontier α ι) :
    Prop where
  init_mem : init ∈ f.visited
  near : ∀ b ∈ f.visited, ∃ n ≤ limit, Dist (Edge edges) init n b
  queued : ∀ x ∈ f.queue, x.1 ∈ f.visited ∧ Dist (Edge edges) init x.2 x.1
  sorted : f.queue.Pairwise fun x y => x.2 ≤ y.2
  span : ∀ x ∈ f.queue, ∀ y ∈ f.queue, y.2 ≤ x.2 + 1
  expanded : ∀ b ∈ f.visited, (∀ n, (b, n) ∉ f.queue) → ∀ n < limit,
    Dist (Edge edges) init n b → ∀ c, Edge edges b c → c ∈ f.visited
  parent : ∀ b ∈ f.visited, b ≠ init → ∃ a label, f.parent b = some (a, label) ∧
    (label, b) ∈ edges a ∧ a ∈ f.visited ∧
    ∃ n, Dist (Edge edges) init n a ∧ Dist (Edge edges) init (n + 1) b

omit [DecidableEq α] in
lemma layered_start (limit : Nat) (init : α) : Layered edges limit init (start init) where
  init_mem := List.mem_singleton_self init
  near b hb := by
    obtain rfl := List.mem_singleton.mp hb
    exact ⟨0, Nat.zero_le _, dist_self⟩
  queued x hx := by
    obtain rfl := List.mem_singleton.mp hx
    exact ⟨List.mem_singleton_self _, dist_self⟩
  sorted := List.pairwise_singleton _ _
  span x hx y hy := by
    obtain rfl := List.mem_singleton.mp hx
    obtain rfl := List.mem_singleton.mp hy
    exact Nat.le_succ _
  expanded b hb hqueue := by
    obtain rfl := List.mem_singleton.mp hb
    exact absurd (List.mem_singleton_self _) (hqueue 0)
  parent b hb hne := absurd (List.mem_singleton.mp hb) hne

omit [DecidableEq α] in
/-- When every queued element is at least `depth` away, all that is no further is visited. -/
lemma Layered.mem_of_dist (h : Layered edges limit init f) {depth n : Nat} {b : α}
    (hdepth : ∀ x ∈ f.queue, depth ≤ x.2) (hn : n ≤ depth) (hlimit : n ≤ limit)
    (hb : Dist (Edge edges) init n b) : b ∈ f.visited := by
  induction n generalizing b with
  | zero =>
    cases hb.walk
    exact h.init_mem
  | succ n ih =>
    obtain ⟨a, ha, hstep⟩ := hb.exists_pred
    refine h.expanded a (ih (by omega) (by omega) ha) ?_ n (by omega) ha b hstep
    -- the element before it is nearer than anything queued
    intro m hm
    have hdist := ha.unique (h.queued _ hm).2
    have hle := hdepth _ hm
    simp only at hle hdist
    omega

omit [DecidableEq α] in
lemma Layered.skip {current : α} {depth : Nat} {rest : List (α × Nat)}
    (h : Layered edges limit init f) (hqueue : f.queue = (current, depth) :: rest)
    (hlimit : limit ≤ depth) : Layered edges limit init { f with queue := rest } := by
  have hrest : ∀ x ∈ rest, x ∈ f.queue := by
    intro x hx
    rw [hqueue]
    exact List.mem_cons_of_mem _ hx
  refine ⟨h.init_mem, h.near, fun x hx => h.queued x (hrest x hx), ?_,
    fun x hx y hy => h.span x (hrest x hx) y (hrest y hy), ?_, h.parent⟩
  · have hsorted := h.sorted
    rw [hqueue] at hsorted
    exact hsorted.of_cons
  · intro b hb hnot n hn hdist
    refine h.expanded b hb ?_ n hn hdist
    intro m hm
    rw [hqueue] at hm
    obtain heq | hm := List.mem_cons.mp hm
    · -- the element taken is too far away to be expanded
      have hcurrent := (h.queued (current, depth) (by simp [hqueue])).2
      cases heq
      have := hdist.unique hcurrent
      simp only at this
      omega
    · exact hnot m hm

lemma Layered.expand {current : α} {depth : Nat} {rest : List (α × Nat)} {news : List α}
    (h : Layered edges limit init f) (hqueue : f.queue = (current, depth) :: rest)
    (hlimit : depth < limit)
    (hf' : Discovered current depth (edges current) { f with queue := rest } f' news) :
    Layered edges limit init f' := by
  have hsorted := h.sorted
  rw [hqueue] at hsorted
  obtain ⟨hfirst, hrestSorted⟩ := List.pairwise_cons.mp hsorted
  have hmemRest : ∀ x ∈ rest, x ∈ f.queue := by
    intro x hx
    rw [hqueue]
    exact List.mem_cons_of_mem _ hx
  have hhead : (current, depth) ∈ f.queue := by simp [hqueue]
  obtain ⟨hcurrent, hdist⟩ := h.queued _ hhead
  have hdepth : ∀ x ∈ f.queue, depth ≤ x.2 := by
    intro x hx
    rw [hqueue] at hx
    obtain rfl | hx := List.mem_cons.mp hx
    · exact le_rfl
    · exact hfirst x hx
  have hspan : ∀ x ∈ rest, x.2 ≤ depth + 1 := fun x hx => h.span _ hhead _ (hmemRest x hx)
  -- what is found now was not within `depth`, or it would have been visited
  have hnews : ∀ b ∈ news, Dist (Edge edges) init (depth + 1) b := by
    intro b hb
    obtain ⟨hnot, label, hedge⟩ := (hf'.mem_iff b).mp hb
    refine ⟨hdist.walk.snoc ⟨label, hedge⟩, ?_⟩
    intro m hm
    by_contra hlt
    obtain ⟨k, hk, hb'⟩ := hm.exists_dist
    exact hnot (h.mem_of_dist hdepth (by omega) (by omega) hb')
  have hvisited : ∀ b, b ∈ f'.visited ↔ b ∈ f.visited ∨ b ∈ news := by
    intro b
    rw [hf'.visited, List.mem_append]
  have hqueued : ∀ x, x ∈ f'.queue ↔ x ∈ rest ∨ x.1 ∈ news ∧ x.2 = depth + 1 := by
    intro x
    rw [hf'.queue, List.mem_append, List.mem_map]
    refine or_congr_right ⟨?_, ?_⟩
    · rintro ⟨b, hb, rfl⟩
      exact ⟨hb, rfl⟩
    · rintro ⟨hb, hx⟩
      exact ⟨x.1, hb, Prod.ext rfl hx.symm⟩
  constructor
  · exact (hvisited init).mpr (.inl h.init_mem)
  · intro b hb
    obtain hb | hb := (hvisited b).mp hb
    · exact h.near b hb
    · exact ⟨depth + 1, hlimit, hnews b hb⟩
  · intro x hx
    obtain hx | ⟨hb, hx⟩ := (hqueued x).mp hx
    · obtain ⟨hmem, hdist'⟩ := h.queued x (hmemRest x hx)
      exact ⟨(hvisited _).mpr (.inl hmem), hdist'⟩
    · rw [hx]
      exact ⟨(hvisited _).mpr (.inr hb), hnews _ hb⟩
  · rw [hf'.queue, List.pairwise_append]
    refine ⟨hrestSorted, ?_, ?_⟩
    · rw [List.pairwise_map]
      exact List.pairwise_of_forall fun _ _ => le_rfl
    · intro x hx y hy
      obtain ⟨b, -, rfl⟩ := List.mem_map.mp hy
      exact hspan x hx
  · intro x hx y hy
    obtain hx | ⟨-, hx⟩ := (hqueued x).mp hx
    · obtain hy | ⟨-, hy⟩ := (hqueued y).mp hy
      · exact h.span x (hmemRest x hx) y (hmemRest y hy)
      · have := hfirst x hx
        simp only at this
        omega
    · obtain hy | ⟨-, hy⟩ := (hqueued y).mp hy
      · have := hspan y hy
        omega
      · omega
  · intro b hb hnot n hn hb' c hstep
    have hnotRest : ∀ m, (b, m) ∉ rest := fun m hm => hnot m ((hqueued _).mpr (.inl hm))
    obtain hb | hb := (hvisited b).mp hb
    · rw [hvisited]
      by_cases hbc : b = current
      · subst hbc
        by_cases hc : c ∈ f.visited
        · exact .inl hc
        · exact .inr ((hf'.mem_iff c).mpr ⟨hc, hstep⟩)
      · refine .inl (h.expanded b hb ?_ n hn hb' c hstep)
        intro m hm
        rw [hqueue] at hm
        obtain heq | hm := List.mem_cons.mp hm
        · exact hbc (congrArg Prod.fst heq)
        · exact hnotRest m hm
    · exact absurd ((hqueued _).mpr (.inr ⟨hb, rfl⟩)) (hnot (depth + 1))
  · intro b hb hne
    obtain hb | hb := (hvisited b).mp hb
    · have hbnews : b ∉ news := fun hb' => ((hf'.mem_iff b).mp hb').1 hb
      obtain ⟨a, label, hparent, hedge, ha, hlevel⟩ := h.parent b hb hne
      refine ⟨a, label, ?_, hedge, (hvisited a).mpr (.inl ha), hlevel⟩
      rw [hf'.parent_old b hbnews]
      exact hparent
    · obtain ⟨label, hedge, hparent⟩ := hf'.parent_new b hb
      exact ⟨current, label, hparent, hedge, (hvisited _).mpr (.inl hcurrent), depth, hdist,
        hnews b hb⟩

lemma Layered.search {fuel : Nat} (h : Layered edges limit init f)
    (hsearch : BreadthFirst.search edges limit fuel f = some f') :
    Layered edges limit init f' ∧ f'.queue = [] := by
  fun_induction BreadthFirst.search edges limit fuel f with
  | case1 f fuel hqueue =>
    cases hsearch
    exact ⟨h, hqueue⟩
  | case2 => cases hsearch
  | case3 f current depth rest hqueue fuel hlimit ih => exact ih (h.skip hqueue hlimit) hsearch
  | case4 f current depth rest hqueue fuel hlimit ih =>
    obtain ⟨news, hnews⟩ :=
      discovered_foldl current depth (edges current) { f with queue := rest }
    exact ih (h.expand hqueue (not_le.mp hlimit) hnews) hsearch

/-- The search visits what is within its limit. -/
theorem mem_search_iff {fuel : Nat} (h : search edges limit fuel (start init) = some f) {b : α} :
    b ∈ f.visited ↔ ∃ n ≤ limit, Walk (Edge edges) init n b := by
  obtain ⟨hlayered, hqueue⟩ := (layered_start limit init).search h
  constructor
  · intro hb
    obtain ⟨n, hn, hdist⟩ := hlayered.near b hb
    exact ⟨n, hn, hdist.walk⟩
  · rintro ⟨n, hn, hwalk⟩
    obtain ⟨m, hm, hdist⟩ := hwalk.exists_dist
    have hdepth : ∀ x ∈ f.queue, m ≤ x.2 := by simp [hqueue]
    exact hlayered.mem_of_dist hdepth le_rfl (by omega) hdist

/-! ### The search ends -/

/-- New elements are taken from those not yet seen. -/
lemma unseen_append {nodes seen news : List α} (hnodup : news.Nodup)
    (hnews : ∀ b ∈ news, b ∈ nodes ∧ b ∉ seen) :
    Closure.unseen nodes (seen ++ news) + news.length = Closure.unseen nodes seen := by
  have hsub : news.toFinset ⊆ nodes.toFinset \ seen.toFinset := by
    intro b hb
    simpa using hnews b (List.mem_toFinset.mp hb)
  have hsplit : nodes.toFinset \ (seen ++ news).toFinset =
      (nodes.toFinset \ seen.toFinset) \ news.toFinset := by
    ext b
    simp [and_assoc]
  unfold Closure.unseen
  rw [hsplit, ← List.toFinset_card_of_nodup hnodup, Finset.card_sdiff_add_card_eq_card hsub]

theorem search_isSome {nodes : List α} (hclosed : ∀ a ∈ nodes, ∀ b, Edge edges a b → b ∈ nodes)
    {fuel : Nat} (hqueue : ∀ x ∈ f.queue, x.1 ∈ nodes)
    (hfuel : f.queue.length + Closure.unseen nodes f.visited ≤ fuel) :
    (search edges limit fuel f).isSome := by
  fun_induction search edges limit fuel f with
  | case1 => rfl
  | case2 f current depth rest heq =>
    rw [heq, List.length_cons] at hfuel
    omega
  | case3 f current depth rest heq fuel hlimit ih =>
    rw [heq, List.length_cons] at hfuel
    refine ih ?_ ?_
    · intro x hx
      exact hqueue x (by simp [heq, hx])
    · simp only
      omega
  | case4 f current depth rest heq fuel hlimit ih =>
    rw [heq, List.length_cons] at hfuel
    obtain ⟨news, hnews⟩ :=
      discovered_foldl current depth (edges current) { f with queue := rest }
    have hcurrent : current ∈ nodes := hqueue (current, depth) (by simp [heq])
    have hfresh : ∀ b ∈ news, b ∈ nodes ∧ b ∉ f.visited := by
      intro b hb
      obtain ⟨hnot, hedge⟩ := (hnews.mem_iff b).mp hb
      exact ⟨hclosed current hcurrent b hedge, hnot⟩
    have hunseen := unseen_append hnews.nodup hfresh
    refine ih ?_ ?_
    · intro x hx
      rw [hnews.queue, List.mem_append, List.mem_map] at hx
      obtain hx | ⟨b, hb, rfl⟩ := hx
      · exact hqueue x (by simp [heq, hx])
      · exact (hfresh b hb).1
    · rw [hnews.queue, hnews.visited, List.length_append, List.length_map]
      simp only
      omega

/-- More fuel changes nothing. -/
lemma search_add {fuel : Nat} (h : search edges limit fuel f = some f') (n : Nat) :
    search edges limit (fuel + n) f = some f' := by
  fun_induction search edges limit fuel f with
  | case1 f fuel heq =>
    rw [search, heq]
    exact h
  | case2 => cases h
  | case3 f current depth rest heq fuel hlimit ih =>
    rw [Nat.succ_add, search]
    simp only [heq, if_pos hlimit]
    exact ih h
  | case4 f current depth rest heq fuel hlimit ih =>
    rw [Nat.succ_add, search]
    simp only [heq, if_neg hlimit]
    exact ih h

/-! ### Going back -/

/-- Follow the parents back to the start, the steps taken in front of those already there. The
outer `none` stands for fuel that is used up, the inner one for a missing parent. -/
def backtrack (parent : α → Option (α × ι)) (init : α) :
    Nat → α → List (α × ι) → Option (Option (List (α × ι)))
  | fuel, current, steps =>
    if current = init then some (some steps)
    else
      match fuel with
      | 0 => none
      | fuel + 1 =>
        match parent current with
        | none => some none
        | some (a, label) => backtrack parent init fuel a ((current, label) :: steps)

/-- A walk with the labels of its steps. -/
inductive Trail (edges : α → List (ι × α)) (a : α) : List (α × ι) → α → Prop
  | nil : Trail edges a [] a
  | snoc {path : List (α × ι)} {b c : α} {label : ι} (h : Trail edges a path b)
      (hstep : (label, c) ∈ edges b) : Trail edges a (path ++ [(c, label)]) c

lemma Layered.backtrack (h : Layered edges limit init f) {n : Nat} {b : α}
    (hb : b ∈ f.visited) (hdist : Dist (Edge edges) init n b) :
    ∃ path, Trail edges init path b ∧ path.length = n ∧ ∀ fuel, n ≤ fuel → ∀ steps,
      BreadthFirst.backtrack f.parent init fuel b steps = some (some (path ++ steps)) := by
  induction n generalizing b with
  | zero =>
    cases hdist.walk
    refine ⟨[], .nil, rfl, fun fuel _ steps => ?_⟩
    simp [BreadthFirst.backtrack.eq_def]
  | succ n ih =>
    have hne : b ≠ init := by
      rintro rfl
      cases hdist.unique dist_self
    obtain ⟨a, label, hparent, hedge, ha, m, hda, hdb⟩ := h.parent b hb hne
    obtain rfl : m = n := Nat.succ_injective (hdb.unique hdist)
    obtain ⟨path, htrail, hlength, hback⟩ := ih ha hda
    refine ⟨path ++ [(b, label)], htrail.snoc hedge, by simp [hlength], fun fuel hfuel steps => ?_⟩
    obtain ⟨fuel, rfl⟩ : ∃ k, fuel = k + 1 := ⟨fuel - 1, by omega⟩
    rw [BreadthFirst.backtrack.eq_def]
    simp only [if_neg hne, hparent]
    rw [hback fuel (by omega), List.append_assoc, List.singleton_append]

end BreadthFirst
