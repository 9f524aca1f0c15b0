import Mathlib

/-!
# Strings of decimal digits

The number a string of digits denotes, and its comparison: among strings of one length the
lexicographic order is the order of the numbers.
-/

namespace DigitString

def AreDigits (ds : List Char) : Prop := ∀ d ∈ ds, d.isDigit

def natOf (ds : List Char) : Nat := ds.foldl (fun n d => 10 * n + (d.toNat - 48)) 0

@[simp] lemma natOf_nil : natOf [] = 0 := rfl

lemma foldl_digits (ds : List Char) (n : Nat) :
    ds.foldl (fun n d => 10 * n + (d.toNat - 48)) n = n * 10 ^ ds.length + natOf ds := by
  induction ds generalizing n with
  | nil => simp [natOf]
  | cons d ds ih =>
    rw [natOf, List.foldl_cons, List.foldl_cons, ih, ih (10 * 0 + (d.toNat - 48)),
      List.length_cons]
    ring

lemma natOf_append (xs ys : List Char) :
    natOf (xs ++ ys) = natOf xs * 10 ^ ys.length + natOf ys := by
  rw [natOf, List.foldl_append, foldl_digits]
  rfl

lemma natOf_cons (d : Char) (ds : List Char) :
    natOf (d :: ds) = (d.toNat - 48) * 10 ^ ds.length + natOf ds := by
  rw [← List.singleton_append, natOf_append]
  simp [natOf]

lemma natOf_replicate_zero (n : Nat) : natOf (List.replicate n '0') = 0 := by
  induction n with
  | zero => rfl
  | succ n ih =>
    rw [List.replicate_succ, natOf_cons, ih]
    simp

lemma digit_le {d : Char} (h : d.isDigit) : 48 ≤ d.toNat ∧ d.toNat ≤ 57 :=
  Char.isDigit_iff_toNat.mp h

lemma natOf_lt {ds : List Char} (h : AreDigits ds) : natOf ds < 10 ^ ds.length := by
  induction ds with
  | nil => simp
  | cons d ds ih =>
    have hd := digit_le (h d List.mem_cons_self)
    have hds := ih fun d' hd' => h d' (List.mem_cons_of_mem _ hd')
    have hle : (d.toNat - 48) * 10 ^ ds.length ≤ 9 * 10 ^ ds.length :=
      Nat.mul_le_mul_right _ (by omega)
    rw [natOf_cons, List.length_cons, pow_succ]
    omega

/-- A string of digits denotes zero when all its digits are. -/
lemma natOf_eq_zero_iff {ds : List Char} (h : AreDigits ds) :
    natOf ds = 0 ↔ ∀ d ∈ ds, d = '0' := by
  induction ds with
  | nil => simp
  | cons d ds ih =>
    have hd := digit_le (h d List.mem_cons_self)
    have hzero : d.toNat - 48 = 0 ↔ d = '0' := by
      constructor
      · intro hsub
        have hnat : d.toNat = '0'.toNat := by
          have : '0'.toNat = 48 := rfl
          omega
        exact Char.toNat_inj.mp hnat
      · rintro rfl
        rfl
    rw [natOf_cons, Nat.add_eq_zero_iff, Nat.mul_eq_zero, hzero,
      ih fun d' hd' => h d' (List.mem_cons_of_mem _ hd')]
    simp

/-- Numbers split at a power of the base are compared part by part. -/
lemma cmp_mul_add {a b m n p : Nat} (hm : m < p) (hn : n < p) :
    cmp (a * p + m) (b * p + n) = (cmp a b).then (cmp m n) := by
  have hless : ∀ {a b m n : Nat}, m < p → a < b → a * p + m < b * p + n := by
    intro a b m n hm hab
    calc a * p + m < a * p + p := by omega
      _ = (a + 1) * p := by ring
      _ ≤ b * p := Nat.mul_le_mul_right _ hab
      _ ≤ b * p + n := Nat.le_add_right _ _
  rcases lt_trichotomy a b with hab | rfl | hab
  · rw [hab.cmp_eq_lt, (hless hm hab).cmp_eq_lt]
    rfl
  · rw [cmp_self_eq_eq, Ordering.then, cmp_add_left]
  · rw [hab.cmp_eq_gt, (hless hn hab).cmp_eq_gt]
    rfl

lemma compare_digits {x y : Char} (hx : x.isDigit) (hy : y.isDigit) :
    compare x y = cmp (x.toNat - 48) (y.toNat - 48) := by
  have hx := digit_le hx
  have hy := digit_le hy
  rw [← cmp_eq_compare]
  rcases lt_trichotomy x y with h | rfl | h
  · have hnat : x.toNat < y.toNat := h
    rw [h.cmp_eq_lt, (cmp_eq_lt_iff _ _).mpr (by omega)]
  · rw [cmp_self_eq_eq, cmp_self_eq_eq]
  · have hnat : y.toNat < x.toNat := h
    rw [h.cmp_eq_gt, (cmp_eq_gt_iff _ _).mpr (by omega)]

/-- Among strings of one length, the lexicographic order is the order of the numbers. -/
theorem compareLex_eq {xs ys : List Char} (hxs : AreDigits xs) (hys : AreDigits ys)
    (hlen : xs.length = ys.length) :
    List.compareLex compare xs ys = cmp (natOf xs) (natOf ys) := by
  induction xs generalizing ys with
  | nil =>
    cases ys with
    | nil => simp
    | cons y ys => simp at hlen
  | cons x xs ih =>
    cases ys with
    | nil => simp at hlen
    | cons y ys =>
      have hlen' : xs.length = ys.length := by simpa using hlen
      have hxs' : AreDigits xs := fun d hd => hxs d (List.mem_cons_of_mem _ hd)
      have hys' : AreDigits ys := fun d hd => hys d (List.mem_cons_of_mem _ hd)
      have hltx := natOf_lt hxs'
      rw [hlen'] at hltx
      rw [List.compareLex_cons_cons, ih hxs' hys' hlen', natOf_cons, natOf_cons, hlen',
        cmp_mul_add hltx (natOf_lt hys'),
        compare_digits (hxs x List.mem_cons_self) (hys y List.mem_cons_self)]

end DigitString
