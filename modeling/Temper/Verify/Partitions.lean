import Mathlib
import Temper.Lib.Renumber
import Temper.Verify.Model

/-!
# Enumerating the identity patterns

References are only ever compared, so an entity's identity is known by which of its references are
equal. The patterns of `len` references are enumerated by backtracking over one vector of classes:
a class is pushed, the rest is enumerated and the class is popped again. The vectors found are
those that number their classes by first occurrence, one for each way of being equal.
-/

namespace Temper.Verify

open Renumber

/-! ### The search -/

/-- The classes chosen so far and the patterns found. -/
structure Backtrack where
  classes : List Nat := []
  out : List (List Nat) := []

def Backtrack.push (s : Backtrack) (symbol : Nat) : Backtrack :=
  { s with classes := s.classes ++ [symbol] }

def Backtrack.pop (s : Backtrack) : Backtrack := { s with classes := s.classes.dropLast }

/-- The recursion of `canonical_partitions`, with its depth bounded. -/
def Backtrack.extend (len : Nat) : Nat → Backtrack → Backtrack
  | 0, s => s
  | depth + 1, s =>
    if s.classes.length = len then { s with out := s.out ++ [s.classes] }
    else
      (List.range' 1 (max (s.classes.foldl max 0 + 1) 1)).foldl
        (fun s symbol => (extend len depth (s.push symbol)).pop) s

/-- `canonical_partitions` as it runs, on one vector of classes. -/
def canonicalPartitionsInPlace (len : Nat) : List (List Nat) :=
  (Backtrack.extend len (len + 1) {}).out

/-- A loop that pushes, collects and pops leaves the classes as they were. -/
lemma Backtrack.foldl_push_pop {f : Backtrack → Backtrack} {found : List Nat → List (List Nat)}
    {classes : List Nat} (hf : ∀ symbol out,
      f ⟨classes ++ [symbol], out⟩ = ⟨classes ++ [symbol], out ++ found (classes ++ [symbol])⟩)
    (symbols : List Nat) (out : List (List Nat)) :
    symbols.foldl (fun s symbol => (f (s.push symbol)).pop) ⟨classes, out⟩ =
      ⟨classes, out ++ symbols.flatMap fun symbol => found (classes ++ [symbol])⟩ := by
  induction symbols generalizing out with
  | nil => simp
  | cons symbol symbols ih =>
    have hstep : (f (push ⟨classes, out⟩ symbol)).pop =
        ⟨classes, out ++ found (classes ++ [symbol])⟩ := by
      simp only [push, hf, pop, List.dropLast_concat]
    rw [List.foldl_cons, hstep, ih, List.flatMap_cons, List.append_assoc]

/-- The search finds the extensions of the classes chosen so far, in order. -/
lemma Backtrack.extend_eq {len rest : Nat} {classes : List Nat}
    (h : classes.length + rest = len) (out : List (List Nat)) :
    extend len (rest + 1) ⟨classes, out⟩ = ⟨classes, out ++ extendPartitions rest classes⟩ := by
  induction rest generalizing classes out with
  | zero =>
    rw [extend, if_pos (by simpa using h)]
    rfl
  | succ rest ih =>
    have hnext : ∀ symbol out, extend len (rest + 1) ⟨classes ++ [symbol], out⟩ =
        ⟨classes ++ [symbol], out ++ extendPartitions rest (classes ++ [symbol])⟩ := by
      intro symbol out
      refine ih ?_ out
      rw [List.length_append, List.length_singleton]
      omega
    have hsymbols : max (classes.foldl max 0 + 1) 1 = classes.foldl max 0 + 1 :=
      max_eq_left (by omega)
    rw [extend, if_neg (by simp only; omega), hsymbols, foldl_push_pop hnext, extendPartitions]

theorem canonicalPartitionsInPlace_eq (len : Nat) :
    canonicalPartitionsInPlace len = canonicalPartitions len := by
  rw [canonicalPartitionsInPlace, Backtrack.extend_eq (by simp)]
  rfl

/-! ### What is found -/

lemma mem_extendPartitions {len : Nat} {classes v : List Nat} :
    v ∈ extendPartitions len classes ↔ ∃ rest, v = classes ++ rest ∧ rest.length = len ∧
      0 ∉ rest ∧ RestrictedGrowth (classes.foldl max 0) rest := by
  induction len generalizing classes with
  | zero =>
    simp only [extendPartitions, List.mem_singleton, List.length_eq_zero_iff]
    constructor
    · rintro rfl
      exact ⟨[], by simp [RestrictedGrowth]⟩
    · rintro ⟨rest, rfl, rfl, -⟩
      simp
  | succ len ih =>
    simp only [extendPartitions, List.mem_flatMap, List.mem_range'_1, ih, List.foldl_append,
      List.foldl_cons, List.foldl_nil]
    constructor
    · rintro ⟨symbol, hsymbol, rest, rfl, hlength, hzero, hgrowth⟩
      refine ⟨symbol :: rest, by simp, by simp [hlength], ?_, by omega, hgrowth⟩
      rw [List.mem_cons, not_or]
      exact ⟨by omega, hzero⟩
    · rintro ⟨rest, rfl, hlength, hzero, hgrowth⟩
      obtain ⟨symbol, rest, rfl⟩ := List.exists_cons_of_length_eq_add_one hlength
      rw [List.mem_cons, not_or] at hzero
      obtain ⟨hsymbol, hrest⟩ := hgrowth
      exact ⟨symbol, by omega, rest, by simp, by simpa using hlength, hzero.2, hrest⟩

lemma nodup_extendPartitions (len : Nat) (classes : List Nat) :
    (extendPartitions len classes).Nodup := by
  induction len generalizing classes with
  | zero => simp [extendPartitions]
  | succ len ih =>
    rw [extendPartitions, List.nodup_flatMap]
    refine ⟨fun symbol _ => ih _, (List.nodup_range' (s := 1)).imp ?_⟩
    -- two symbols lead to vectors that differ behind the classes chosen so far
    intro a b hne v ha hb
    obtain ⟨rest, rfl, -⟩ := mem_extendPartitions.mp ha
    obtain ⟨rest', heq, -⟩ := mem_extendPartitions.mp hb
    simp only [List.append_assoc, List.append_cancel_left_eq, List.singleton_append,
      List.cons.injEq] at heq
    exact hne heq.1

/-- Positive numbers from 1 on, none more than one above the greatest before it. -/
structure GrowsByOne (v : List Nat) : Prop where
  pos : ∀ n ∈ v, 0 < n
  head : 0 < v.length → v[0]? = some 1
  step : ∀ i n, v[i]? = some n → n ≤ (v.take i).foldl max 0 + 1

lemma growsByOne_iff {v : List Nat} : GrowsByOne v ↔ 0 ∉ v ∧ RestrictedGrowth 0 v := by
  rw [restrictedGrowth_iff]
  constructor
  · intro h
    exact ⟨fun hzero => absurd (h.pos 0 hzero) (by omega), h.step⟩
  · rintro ⟨hzero, hstep⟩
    have hpos : ∀ n ∈ v, 0 < n := fun n hn => Nat.pos_of_ne_zero fun h => hzero (h ▸ hn)
    refine ⟨hpos, ?_, hstep⟩
    intro hlength
    have hle := hstep 0 _ (List.getElem?_eq_getElem hlength)
    have hlt := hpos _ (List.getElem_mem hlength)
    rw [List.take_zero, List.foldl_nil] at hle
    rw [List.getElem?_eq_getElem hlength]
    congr 1
    omega

lemma mem_canonicalPartitions {len : Nat} {v : List Nat} :
    v ∈ canonicalPartitions len ↔ v.length = len ∧ GrowsByOne v := by
  rw [canonicalPartitions, mem_extendPartitions, growsByOne_iff]
  simp

/-! ### One vector for each pattern -/

/-- The vector holds equal numbers where the identities are equal. -/
def HasPattern {α : Type*} {n : Nat} (f : Fin n → α) (v : List Nat) : Prop :=
  ∀ i j : Fin n, v[i.val]? = v[j.val]? ↔ f i = f j

variable {α : Type*} {n : Nat}

/-- Numbering the identities by first occurrence gives a vector of their pattern. -/
lemma exists_hasPattern (f : Fin n → α) :
    ∃ v : List Nat, v.length = n ∧ GrowsByOne v ∧ HasPattern f v := by
  classical
  let names : List (WithZero α) := List.ofFn fun i => (f i : WithZero α)
  have hzero : (0 : WithZero α) ∉ names := by
    simp only [names, List.mem_ofFn, not_exists]
    exact fun i => WithZero.coe_ne_zero
  have hlength : names.length = n := List.length_ofFn
  refine ⟨renumber [] names, by rw [length_renumber, hlength], growsByOne_iff.mpr ⟨?_, ?_⟩, ?_⟩
  · intro hmem
    obtain ⟨i, hi⟩ := List.mem_iff_getElem?.mp hmem
    exact hzero (List.mem_of_getElem? ((getElem?_renumber_eq_zero _ _ i).mp hi))
  · exact restrictedGrowth_renumber [] names
  · intro i j
    rw [getElem?_renumber_eq_iff hzero [] (by omega) (by omega)]
    simp [names]

/-- Vectors of the same pattern are numbered alike. -/
lemma GrowsByOne.eq_of_hasPattern {f : Fin n → α} {v w : List Nat} (hv : GrowsByOne v)
    (hw : GrowsByOne w) (hlengthV : v.length = n) (hlengthW : w.length = n)
    (hpatternV : HasPattern f v) (hpatternW : HasPattern f w) : v = w := by
  obtain ⟨hzeroV, hgrowthV⟩ := growsByOne_iff.mp hv
  obtain ⟨hzeroW, hgrowthW⟩ := growsByOne_iff.mp hw
  have hplace : ∀ p ∈ v.zip w, ∃ i : Fin n, v[i.val]? = some p.1 ∧ w[i.val]? = some p.2 := by
    intro p hp
    obtain ⟨i, hi⟩ := List.mem_iff_getElem?.mp hp
    obtain ⟨hiV, hiW⟩ := List.getElem?_zip_eq_some.mp hi
    have hlt : i < n := by
      rw [← hlengthV]
      exact (List.getElem?_eq_some_iff.mp hiV).1
    exact ⟨⟨i, hlt⟩, hiV, hiW⟩
  have hsame : SamePlaces (v.zip w) := by
    refine ⟨?_, ?_⟩
    · intro p hp
      have hp1 : p.1 ≠ 0 := fun h => hzeroV (h ▸ (List.of_mem_zip hp).1)
      have hp2 : p.2 ≠ 0 := fun h => hzeroW (h ▸ (List.of_mem_zip hp).2)
      simp [hp1, hp2]
    · intro p hp q hq
      obtain ⟨i, hiV, hiW⟩ := hplace p hp
      obtain ⟨j, hjV, hjW⟩ := hplace q hq
      have hiff := (hpatternV i j).trans (hpatternW i j).symm
      rwa [hiV, hjV, hiW, hjW, Option.some.injEq, Option.some.injEq] at hiff
  have heq := renumber_eq_of_samePlaces hsame
  rw [List.map_fst_zip (by omega), List.map_snd_zip (by omega)] at heq
  have hfixV := renumber_of_restrictedGrowth hgrowthV
  have hfixW := renumber_of_restrictedGrowth hgrowthW
  rw [List.range'_zero] at hfixV hfixW
  rw [← hfixV, heq, hfixW]

/-- The enumeration has every vector that grows by one, once, and exactly one of them for each way
in which identities at `n` places can be equal. -/
theorem canonicalPartitions_exact (n : Nat) :
    (canonicalPartitionsInPlace n).Nodup ∧
      (∀ v, v ∈ canonicalPartitionsInPlace n ↔ v.length = n ∧ GrowsByOne v) ∧
      ∀ (α : Type*) (f : Fin n → α),
        ∃! v, v ∈ canonicalPartitionsInPlace n ∧ HasPattern f v := by
  rw [canonicalPartitionsInPlace_eq]
  refine ⟨nodup_extendPartitions n [], fun v => mem_canonicalPartitions, ?_⟩
  intro α f
  obtain ⟨v, hlength, hgrows, hpattern⟩ := exists_hasPattern f
  refine ⟨v, ⟨mem_canonicalPartitions.mpr ⟨hlength, hgrows⟩, hpattern⟩, ?_⟩
  rintro w ⟨hw, hpatternW⟩
  obtain ⟨hlengthW, hgrowsW⟩ := mem_canonicalPartitions.mp hw
  exact hgrowsW.eq_of_hasPattern hgrows hlengthW hlength hpatternW hpattern

example : canonicalPartitions 3 = [[1, 1, 1], [1, 1, 2], [1, 2, 1], [1, 2, 2], [1, 2, 3]] := by
  decide

end Temper.Verify
