import Mathlib
import Temper.Lib.DigitString
import Temper.Spec.Naming

/-!
# Comparing decimals

A value of type `Edm.Decimal` is a string that passes a lexical check: a sign, digits, a fraction
and an exponent. Module-data queries compare such strings without reading them as numbers: by sign,
by the number of digits before the point, and digit by digit. A spelling with a plus sign or an
exponent is not compared at all, leading zeros count as digits, and a zero keeps its sign.
-/

namespace Temper.ApplicationData

open DigitString

/-! ### The admission check -/

/-- `strip_prefix(['+', '-'])`, or the text itself. -/
def stripSign : List Char → List Char
  | '+' :: text => text
  | '-' :: text => text
  | text => text

def isExponentMark (c : Char) : Bool := c = 'e' || c = 'E'

/-- What stands before the first mark of an exponent, and what stands after it. -/
def splitExponent (unsigned : List Char) : List Char × Option (List Char) :=
  (unsigned.takeWhile (!isExponentMark ·),
    match unsigned.dropWhile (!isExponentMark ·) with
    | [] => none
    | _ :: exponent => some exponent)

def exponentLexical (exponent : List Char) : Bool :=
  let digits := stripSign exponent
  !digits.isEmpty && digits.all Char.isDigit

def decimalLexical (value : String) : Bool :=
  if value ∈ ["NaN", "INF", "-INF"] then false
  else
    let unsigned := stripSign value.toList
    let (mantissa, exponent) := splitExponent unsigned
    if exponent.any (!exponentLexical ·) || unsigned.countP isExponentMark > 1 then false
    else
      match mantissa.splitOn '.' with
      | [whole] => !whole.isEmpty && whole.all Char.isDigit
      | [whole, fraction] => !whole.isEmpty && whole.all Char.isDigit &&
          (!fraction.isEmpty && fraction.all Char.isDigit)
      | _ => false

/-! ### The comparison -/

/-- The digits of a fraction, followed by zeros up to a width. -/
def padded (width : Nat) (fraction : List Char) : List Char :=
  (fraction ++ List.replicate width '0').take width

/-- The whole parts by length, then digit by digit; then the fractions. -/
def compareParts (leftWhole leftFraction rightWhole rightFraction : List Char) : Ordering :=
  let width := max leftFraction.length rightFraction.length
  (compare leftWhole.length rightWhole.length).then
    ((List.compareLex compare leftWhole rightWhole).then
      (List.compareLex compare (padded width leftFraction) (padded width rightFraction)))

def compareMagnitude (left right : List Char) : Option Ordering :=
  let (leftWhole, leftFraction) := (Spec.splitOnce '.' left).getD (left, [])
  let (rightWhole, rightFraction) := (Spec.splitOnce '.' right).getD (right, [])
  if leftWhole.all Char.isDigit && rightWhole.all Char.isDigit && leftFraction.all Char.isDigit &&
      rightFraction.all Char.isDigit then
    some (compareParts leftWhole leftFraction rightWhole rightFraction)
  else none

def compareDecimal (left right : String) : Option Ordering :=
  let leftNegative := left.toList.head? = some '-'
  let rightNegative := right.toList.head? = some '-'
  if ¬(leftNegative ↔ rightNegative) then some (if leftNegative then .lt else .gt)
  else
    (compareMagnitude (left.toList.dropWhile (· = '-')) (right.toList.dropWhile (· = '-'))).map
      fun magnitude => if leftNegative then magnitude.swap else magnitude

/-! ### What a spelling denotes -/

/-- The parts of a decimal; a missing fraction is empty. -/
structure Spelling where
  negative : Bool
  plus : Bool
  whole : List Char
  fraction : List Char
  exponent : Option (List Char)

namespace Spelling

def of (value : String) : Spelling :=
  let (mantissa, exponent) := splitExponent (stripSign value.toList)
  let (whole, fraction) := (Spec.splitOnce '.' mantissa).getD (mantissa, [])
  { negative := value.toList.head? = some '-'
    plus := value.toList.head? = some '+'
    whole, fraction, exponent }

def digits (s : Spelling) : List Char := s.whole ++ s.fraction

def power (s : Spelling) : ℤ :=
  match s.exponent with
  | none => 0
  | some ('-' :: digits) => -(natOf digits : ℤ)
  | some exponent => natOf (stripSign exponent)

def magnitude (s : Spelling) : ℚ := natOf s.digits * (10 : ℚ) ^ (s.power - s.fraction.length)

def value (s : Spelling) : ℚ := if s.negative then -s.magnitude else s.magnitude

/-- Spelled as the comparison expects it: without a plus sign and without an exponent. -/
def Plain (s : Spelling) : Prop := s.plus = false ∧ s.exponent = none

/-- The longer whole part of `l` is not longer by leading zeros only: one of its surplus digits is
not zero, or what is left without them is greater. -/
def Outgrows (l r : Spelling) : Prop :=
  let surplus := l.whole.length - r.whole.length
  r.whole.length < l.whole.length ∧
    ((l.whole.take surplus).any (· ≠ '0') ∨
      compareParts (l.whole.drop surplus) l.fraction r.whole r.fraction = .gt)

/-- Where the comparison is the one of the numbers. Under different signs it does not look at the
digits, so one of them must not be zero; under one sign both spellings must be plain, and of whole
parts of different lengths the longer one must be the greater one. -/
def Comparable (l r : Spelling) : Prop :=
  if l.negative = r.negative then
    l.Plain ∧ r.Plain ∧ (l.whole.length = r.whole.length ∨ l.Outgrows r ∨ r.Outgrows l)
  else (l.digits ++ r.digits).any (· ≠ '0')

instance (s : Spelling) : Decidable s.Plain :=
  inferInstanceAs (Decidable (s.plus = false ∧ s.exponent = none))

instance (l r : Spelling) : Decidable (l.Outgrows r) :=
  inferInstanceAs (Decidable (r.whole.length < l.whole.length ∧
    ((l.whole.take (l.whole.length - r.whole.length)).any (· ≠ '0') ∨
      compareParts (l.whole.drop (l.whole.length - r.whole.length)) l.fraction r.whole
        r.fraction = .gt)))

instance (l r : Spelling) : Decidable (l.Comparable r) :=
  inferInstanceAs (Decidable (if l.negative = r.negative then
    l.Plain ∧ r.Plain ∧ (l.whole.length = r.whole.length ∨ l.Outgrows r ∨ r.Outgrows l)
    else (l.digits ++ r.digits).any (· ≠ '0')))

end Spelling

/-- The number a decimal denotes. -/
def decimalValue (value : String) : ℚ := (Spelling.of value).value

/-! ### Admitted spellings -/

/-- The parts the comparison works on. -/
def partsOf (text : List Char) : List Char × List Char := (Spec.splitOnce '.' text).getD (text, [])

lemma mem_partsOf {text : List Char} {c : Char} (hc : c ∈ text) (hpoint : c ≠ '.') :
    c ∈ (partsOf text).1 ∨ c ∈ (partsOf text).2 := by
  unfold partsOf
  cases hsplit : Spec.splitOnce '.' text with
  | none => exact .inl hc
  | some parts =>
    obtain ⟨before, after⟩ := parts
    obtain ⟨htext, -⟩ := Spec.splitOnce_eq_some hsplit
    rw [htext, List.mem_append, List.mem_cons] at hc
    simpa [hpoint] using hc

lemma partsOf_of_digits {whole : List Char} (h : AreDigits whole) :
    partsOf whole = (whole, []) := by
  have hpoint : '.' ∉ whole := fun hmem => absurd (h '.' hmem) (by decide)
  rw [partsOf, Spec.splitOnce_eq_none hpoint]
  rfl

lemma splitOnce_append_cons {c : Char} {before : List Char} (h : c ∉ before) (after : List Char) :
    Spec.splitOnce c (before ++ c :: after) = some (before, after) := by
  induction before with
  | nil => simp [Spec.splitOnce]
  | cons d before ih =>
    rw [List.mem_cons, not_or] at h
    rw [List.cons_append, Spec.splitOnce, if_neg (Ne.symm h.1), ih h.2]
    rfl

lemma partsOf_of_point {whole : List Char} (h : AreDigits whole) (fraction : List Char) :
    partsOf (whole ++ '.' :: fraction) = (whole, fraction) := by
  have hpoint : '.' ∉ whole := fun hmem => absurd (h '.' hmem) (by decide)
  rw [partsOf, splitOnce_append_cons hpoint]
  rfl

namespace Spelling

/-- Digits before the point, and only digits after it. -/
structure WellSpelled (s : Spelling) : Prop where
  whole_ne_nil : s.whole ≠ []
  whole : AreDigits s.whole
  fraction : AreDigits s.fraction

lemma WellSpelled.digits {s : Spelling} (h : s.WellSpelled) : AreDigits s.digits := by
  intro d hd
  rcases List.mem_append.mp hd with hd | hd
  · exact h.whole d hd
  · exact h.fraction d hd

end Spelling

lemma areDigits_of_all {ds : List Char} (h : ds.all Char.isDigit = true) : AreDigits ds :=
  List.all_eq_true.mp h

lemma wellSpelled_of_lexical {value : String} (h : decimalLexical value) :
    (Spelling.of value).WellSpelled := by
  unfold decimalLexical at h
  split_ifs at h
  simp only at h
  split_ifs at h
  set mantissa := (splitExponent (stripSign value.toList)).1 with hmantissa
  have hparts : ((Spelling.of value).whole, (Spelling.of value).fraction) = partsOf mantissa := rfl
  have hjoin : ['.'].intercalate (mantissa.splitOn '.') = mantissa := List.intercalate_splitOn _
  split at h
  · rename_i whole hsplit
    simp only [Bool.and_eq_true, Bool.not_eq_true', List.isEmpty_eq_false_iff] at h
    have hwhole := areDigits_of_all h.2
    rw [hsplit] at hjoin
    have hwhole' : whole = mantissa := by simpa using hjoin
    rw [← hwhole', partsOf_of_digits hwhole, Prod.mk.injEq] at hparts
    exact ⟨hparts.1 ▸ h.1, hparts.1 ▸ hwhole, by rw [hparts.2]; simp [AreDigits]⟩
  · rename_i whole fraction hsplit
    simp only [Bool.and_eq_true, Bool.not_eq_true', List.isEmpty_eq_false_iff] at h
    obtain ⟨⟨hne, hwhole⟩, -, hfraction⟩ := h
    have hwhole := areDigits_of_all hwhole
    rw [hsplit] at hjoin
    have hmantissa' : whole ++ '.' :: fraction = mantissa := by simpa using hjoin
    rw [← hmantissa', partsOf_of_point hwhole, Prod.mk.injEq] at hparts
    exact ⟨hparts.1 ▸ hne, hparts.1 ▸ hwhole, hparts.2 ▸ areDigits_of_all hfraction⟩
  · exact absurd h (by simp)

lemma whole_isPrefix (value : String) :
    (Spelling.of value).whole <+: stripSign value.toList := by
  have hparts : ∀ text : List Char, (partsOf text).1 <+: text := by
    intro text
    unfold partsOf
    cases hsplit : Spec.splitOnce '.' text with
    | none => exact List.prefix_rfl
    | some parts =>
      obtain ⟨htext, -⟩ := Spec.splitOnce_eq_some hsplit
      exact ⟨_, htext.symm⟩
  exact (hparts _).trans (List.takeWhile_prefix _)

/-- Without its sign an admitted decimal starts with a digit. -/
lemma dropWhile_stripSign {value : String} (h : decimalLexical value) :
    (stripSign value.toList).dropWhile (· = '-') = stripSign value.toList := by
  have hspelled := wellSpelled_of_lexical h
  obtain ⟨rest, hrest⟩ := whole_isPrefix value
  cases hwhole : (Spelling.of value).whole with
  | nil => exact absurd hwhole hspelled.whole_ne_nil
  | cons d ds =>
    have hdigit : d.isDigit := hspelled.whole d (by rw [hwhole]; exact List.mem_cons_self)
    have hne : d ≠ '-' := by
      rintro rfl
      exact absurd hdigit (by decide)
    rw [← hrest, hwhole, List.cons_append, List.dropWhile_cons_of_neg (by simpa using hne)]

/-- What the comparison looks at: the parts of a plain spelling, or something that is not a
number. -/
lemma partsOf_dropWhile {value : String} (h : decimalLexical value) :
    let parts := partsOf (value.toList.dropWhile (· = '-'))
    (Spelling.of value).Plain ∧
        parts = ((Spelling.of value).whole, (Spelling.of value).fraction) ∨
      ¬ (Spelling.of value).Plain ∧ ¬ (AreDigits parts.1 ∧ AreDigits parts.2) := by
  intro parts
  have hforeign : ∀ c ∈ value.toList.dropWhile (· = '-'), c ≠ '.' → c.isDigit = false →
      ¬ (AreDigits parts.1 ∧ AreDigits parts.2) := by
    rintro c hc hpoint hdigit ⟨hwhole, hfraction⟩
    rcases mem_partsOf hc hpoint with hmem | hmem
    · exact absurd (hwhole c hmem) (by simp [hdigit])
    · exact absurd (hfraction c hmem) (by simp [hdigit])
  by_cases hplus : value.toList.head? = some '+'
  · right
    obtain ⟨rest, htext⟩ := List.head?_eq_some_iff.mp hplus
    refine ⟨fun hplain => absurd hplain.1 (by simp [Spelling.of, hplus]),
      hforeign '+' ?_ (by decide) (by decide)⟩
    rw [htext, List.dropWhile_cons_of_neg (by decide)]
    exact List.mem_cons_self
  · have hrest : value.toList.dropWhile (· = '-') = stripSign value.toList := by
      rw [← dropWhile_stripSign h]
      cases htext : value.toList with
      | nil => rfl
      | cons c rest =>
        by_cases hminus : c = '-'
        · subst hminus
          rw [List.dropWhile_cons_of_pos (by decide)]
          rfl
        · have hstrip : stripSign (c :: rest) = c :: rest := by
            have hne : c ≠ '+' := fun heq => hplus (by rw [htext, heq]; rfl)
            unfold stripSign
            split <;> simp_all
          rw [hstrip]
    cases hexponent : (stripSign value.toList).dropWhile (!isExponentMark ·) with
    | nil =>
      left
      have hmantissa : (stripSign value.toList).takeWhile (!isExponentMark ·) =
          stripSign value.toList := by
        have happend := List.takeWhile_append_dropWhile (p := (!isExponentMark ·))
          (l := stripSign value.toList)
        rwa [hexponent, List.append_nil] at happend
      refine ⟨⟨by simp [Spelling.of, hplus], by simp [Spelling.of, splitExponent, hexponent]⟩, ?_⟩
      have hof : ((Spelling.of value).whole, (Spelling.of value).fraction) =
          partsOf ((stripSign value.toList).takeWhile (!isExponentMark ·)) := rfl
      rw [hof, hmantissa, ← hrest]
    | cons c exponent =>
      right
      have hmark : isExponentMark c = true := by
        have hhead := List.head_dropWhile_not (!isExponentMark ·)
          (l := stripSign value.toList) (by simp [hexponent])
        simpa [hexponent] using hhead
      have hmem : c ∈ stripSign value.toList :=
        (List.dropWhile_suffix _).subset (by rw [hexponent]; exact List.mem_cons_self)
      refine ⟨fun hplain => absurd hplain.2 (by simp [Spelling.of, splitExponent, hexponent]),
        hforeign c (hrest ▸ hmem) ?_ ?_⟩
      · rintro rfl
        exact absurd hmark (by decide)
      · rcases (by simpa [isExponentMark] using hmark : c = 'e' ∨ c = 'E') with rfl | rfl <;> rfl

/-- Two admitted decimals have their magnitudes compared exactly when both are plain. -/
lemma compareMagnitude_eq {left right : String} (hl : decimalLexical left)
    (hr : decimalLexical right) :
    let l := Spelling.of left
    let r := Spelling.of right
    (l.Plain ∧ r.Plain ∧
        compareMagnitude (left.toList.dropWhile (· = '-')) (right.toList.dropWhile (· = '-')) =
          some (compareParts l.whole l.fraction r.whole r.fraction)) ∨
      ¬ (l.Plain ∧ r.Plain) ∧
        compareMagnitude (left.toList.dropWhile (· = '-')) (right.toList.dropWhile (· = '-')) =
          none := by
  intro l r
  have hunfold : ∀ x y : List Char, compareMagnitude x y =
      if (partsOf x).1.all Char.isDigit && (partsOf y).1.all Char.isDigit &&
          (partsOf x).2.all Char.isDigit && (partsOf y).2.all Char.isDigit then
        some (compareParts (partsOf x).1 (partsOf x).2 (partsOf y).1 (partsOf y).2)
      else none := fun _ _ => rfl
  have hall : ∀ {a b c d : List Char}, (a.all Char.isDigit && b.all Char.isDigit &&
      c.all Char.isDigit && d.all Char.isDigit) = true ↔
        ((AreDigits a ∧ AreDigits b) ∧ AreDigits c) ∧ AreDigits d := by
    simp [AreDigits]
  rw [hunfold]
  obtain ⟨hlplain, hlparts⟩ | ⟨hlplain, hlparts⟩ := partsOf_dropWhile hl
  · obtain ⟨hrplain, hrparts⟩ | ⟨hrplain, hrparts⟩ := partsOf_dropWhile hr
    · left
      have hlspelled := wellSpelled_of_lexical hl
      have hrspelled := wellSpelled_of_lexical hr
      refine ⟨hlplain, hrplain, ?_⟩
      rw [hlparts, hrparts, if_pos (hall.mpr ⟨⟨⟨hlspelled.whole, hrspelled.whole⟩,
        hlspelled.fraction⟩, hrspelled.fraction⟩)]
    · right
      exact ⟨fun h => hrplain h.2,
        if_neg fun h => hrparts ⟨(hall.mp h).1.1.2, (hall.mp h).2⟩⟩
  · right
    exact ⟨fun h => hlplain h.1,
      if_neg fun h => hlparts ⟨(hall.mp h).1.1.1, (hall.mp h).1.2⟩⟩

/-! ### The order of the numbers -/

lemma length_padded (width : Nat) (fraction : List Char) :
    (padded width fraction).length = width := by
  simp [padded]

lemma areDigits_padded {fraction : List Char} (h : AreDigits fraction) (width : Nat) :
    AreDigits (padded width fraction) := by
  intro d hd
  rcases List.mem_append.mp (List.mem_of_mem_take hd) with hd | hd
  · exact h d hd
  · obtain rfl := List.eq_of_mem_replicate hd
    decide

lemma padded_eq {width : Nat} {fraction : List Char} (h : fraction.length ≤ width) :
    padded width fraction = fraction ++ List.replicate (width - fraction.length) '0' := by
  rw [padded, List.take_append, List.take_of_length_le h, List.take_replicate,
    Nat.min_eq_left (Nat.sub_le _ _)]

lemma AreDigits.append {xs ys : List Char} (hxs : AreDigits xs) (hys : AreDigits ys) :
    AreDigits (xs ++ ys) := by
  intro d hd
  rcases List.mem_append.mp hd with hd | hd
  · exact hxs d hd
  · exact hys d hd

/-- Parts of one length are compared as the numbers are. -/
lemma compareParts_eq_cmp {lw lf rw rf : List Char} (hlw : AreDigits lw) (hlf : AreDigits lf)
    (hrw : AreDigits rw) (hrf : AreDigits rf) (hlen : lw.length = rw.length) :
    compareParts lw lf rw rf =
      cmp (natOf (lw ++ padded (max lf.length rf.length) lf))
        (natOf (rw ++ padded (max lf.length rf.length) rf)) := by
  set width := max lf.length rf.length
  have hleft := natOf_lt (areDigits_padded hlf width)
  have hright := natOf_lt (areDigits_padded hrf width)
  rw [length_padded] at hleft hright
  rw [natOf_append, natOf_append, length_padded, length_padded, cmp_mul_add hleft hright,
    ← compareLex_eq hlw hrw hlen,
    ← compareLex_eq (areDigits_padded hlf width) (areDigits_padded hrf width)
      (by rw [length_padded, length_padded])]
  rw [compareParts, hlen, Nat.compare_eq_eq.mpr rfl]
  rfl

namespace Spelling

variable {l r : Spelling}

/-- The number before the sign, over a common width of the fractions. -/
def scaled (s : Spelling) (width : Nat) : Nat := natOf (s.whole ++ padded width s.fraction)

lemma Plain.magnitude_eq {s : Spelling} (h : s.Plain) {width : Nat}
    (hwidth : s.fraction.length ≤ width) :
    s.magnitude = s.scaled width * (10 : ℚ) ^ (-(width : ℤ)) := by
  obtain ⟨zeros, rfl⟩ := Nat.exists_eq_add_of_le hwidth
  have hpower : s.power = 0 := by simp [power, h.2]
  have hscaled : s.scaled (s.fraction.length + zeros) = natOf s.digits * 10 ^ zeros := by
    rw [scaled, padded_eq hwidth, ← List.append_assoc, natOf_append, natOf_replicate_zero,
      List.length_replicate, Nat.add_sub_cancel_left, add_zero]
    rfl
  have hne : (10 : ℚ) ≠ 0 := by norm_num
  rw [magnitude, hpower, hscaled, Nat.cast_mul, Nat.cast_pow, Nat.cast_ofNat, mul_assoc,
    ← zpow_natCast, ← zpow_add₀ hne]
  congr 2
  push_cast
  ring

lemma cmp_magnitude (hl : l.Plain) (hr : r.Plain) :
    cmp l.magnitude r.magnitude =
      cmp (l.scaled (max l.fraction.length r.fraction.length))
        (r.scaled (max l.fraction.length r.fraction.length)) := by
  set width := max l.fraction.length r.fraction.length
  have hpos : (0 : ℚ) < 10 ^ (-(width : ℤ)) := by positivity
  have hmono : StrictMono fun n : Nat => (n : ℚ) * 10 ^ (-(width : ℤ)) :=
    fun m n h => mul_lt_mul_of_pos_right (Nat.cast_lt.mpr h) hpos
  rw [hl.magnitude_eq (le_max_left _ _), hr.magnitude_eq (le_max_right _ _)]
  exact hmono.cmp_map_eq _ _

/-- The longer whole part is the greater number exactly if it is not longer by leading zeros. -/
lemma scaled_lt_iff_outgrows (hl : l.WellSpelled) (hr : r.WellSpelled)
    (hlen : r.whole.length < l.whole.length) :
    r.scaled (max l.fraction.length r.fraction.length) <
        l.scaled (max l.fraction.length r.fraction.length) ↔ l.Outgrows r := by
  set width := max l.fraction.length r.fraction.length
  set surplus := l.whole.length - r.whole.length with hsurplus
  have htake : AreDigits (l.whole.take surplus) :=
    fun d hd => hl.whole d (List.mem_of_mem_take hd)
  have hdrop : AreDigits (l.whole.drop surplus) :=
    fun d hd => hl.whole d (List.mem_of_mem_drop hd)
  have hdroplen : (l.whole.drop surplus).length = r.whole.length := by
    rw [List.length_drop]
    omega
  have hleft : l.scaled width = natOf (l.whole.take surplus) * 10 ^ (r.whole.length + width) +
      natOf (l.whole.drop surplus ++ padded width l.fraction) := by
    rw [← hdroplen, ← length_padded width l.fraction, ← List.length_append, length_padded,
      ← natOf_append, ← List.append_assoc, List.take_append_drop]
    rfl
  have hright : r.scaled width < 10 ^ (r.whole.length + width) := by
    have hlt := natOf_lt (AreDigits.append hr.whole (areDigits_padded hr.fraction width))
    rwa [List.length_append, length_padded] at hlt
  have hparts := compareParts_eq_cmp hdrop hl.fraction hr.whole hr.fraction hdroplen
  constructor
  · intro hlt
    refine ⟨hlen, ?_⟩
    by_cases hzero : natOf (l.whole.take surplus) = 0
    · right
      rw [hparts, cmp_eq_gt_iff]
      rwa [hleft, hzero, Nat.zero_mul, Nat.zero_add] at hlt
    · left
      rw [natOf_eq_zero_iff htake] at hzero
      push Not at hzero
      simpa using hzero
  · rintro ⟨-, hnonzero | hgreater⟩
    · have hpos : natOf (l.whole.take surplus) ≠ 0 := by
        rw [Ne, natOf_eq_zero_iff htake]
        push Not
        simpa using hnonzero
      calc r.scaled width < 1 * 10 ^ (r.whole.length + width) := by rwa [one_mul]
        _ ≤ natOf (l.whole.take surplus) * 10 ^ (r.whole.length + width) :=
          Nat.mul_le_mul_right _ (Nat.pos_of_ne_zero hpos)
        _ ≤ l.scaled width := by
          rw [hleft]
          exact Nat.le_add_right _ _
    · rw [hparts, cmp_eq_gt_iff] at hgreater
      calc r.scaled width < natOf (l.whole.drop surplus ++ padded width l.fraction) := hgreater
        _ ≤ l.scaled width := by
          rw [hleft]
          exact Nat.le_add_left _ _

lemma compareParts_eq_iff (hl : l.WellSpelled) (hr : r.WellSpelled) (hlp : l.Plain)
    (hrp : r.Plain) :
    compareParts l.whole l.fraction r.whole r.fraction = cmp l.magnitude r.magnitude ↔
      l.whole.length = r.whole.length ∨ l.Outgrows r ∨ r.Outgrows l := by
  rw [cmp_magnitude hlp hrp]
  rcases lt_trichotomy l.whole.length r.whole.length with hlen | hlen | hlen
  · have hlt : compareParts l.whole l.fraction r.whole r.fraction = .lt := by
      rw [compareParts, Nat.compare_eq_lt.mpr hlen]
      rfl
    have hnot : ¬ l.Outgrows r := fun h => absurd h.1 (by omega)
    have hiff := scaled_lt_iff_outgrows hr hl hlen
    rw [max_comm] at hiff
    rw [hlt, eq_comm, cmp_eq_lt_iff, hiff]
    simp [hlen.ne, hnot]
  · rw [compareParts_eq_cmp hl.whole hl.fraction hr.whole hr.fraction hlen]
    simp [hlen, scaled]
  · have hgt : compareParts l.whole l.fraction r.whole r.fraction = .gt := by
      rw [compareParts, Nat.compare_eq_gt.mpr hlen]
      rfl
    have hnot : ¬ r.Outgrows l := fun h => absurd h.1 (by omega)
    rw [hgt, eq_comm, cmp_eq_gt_iff, scaled_lt_iff_outgrows hl hr hlen]
    simp [hlen.ne', hnot]

lemma magnitude_nonneg (s : Spelling) : 0 ≤ s.magnitude := by
  unfold magnitude
  positivity

lemma WellSpelled.magnitude_eq_zero_iff {s : Spelling} (h : s.WellSpelled) :
    s.magnitude = 0 ↔ ∀ d ∈ s.digits, d = '0' := by
  have hpow : (10 : ℚ) ^ (s.power - s.fraction.length) ≠ 0 := zpow_ne_zero _ (by norm_num)
  rw [magnitude, mul_eq_zero, or_iff_left hpow, Nat.cast_eq_zero, natOf_eq_zero_iff h.digits]

/-- Numbers of different signs differ unless both are zero. -/
lemma neg_lt_iff (hl : l.WellSpelled) (hr : r.WellSpelled) :
    -l.magnitude < r.magnitude ↔ (l.digits ++ r.digits).any (· ≠ '0') := by
  have hl0 := l.magnitude_nonneg
  have hr0 := r.magnitude_nonneg
  have hzero : ¬ -l.magnitude < r.magnitude ↔ l.magnitude = 0 ∧ r.magnitude = 0 := by
    constructor
    · intro hge
      constructor <;> linarith
    · rintro ⟨hl, hr⟩
      simp [hl, hr]
  rw [← not_iff_not, hzero, hl.magnitude_eq_zero_iff, hr.magnitude_eq_zero_iff]
  simp only [List.any_eq_true, List.mem_append, decide_eq_true_eq, not_exists, not_and, not_not,
    or_imp, forall_and]

end Spelling

/-- Under one sign the magnitudes are compared, in whichever direction. -/
lemma map_compareMagnitude_eq_iff {left right : String} (hl : decimalLexical left)
    (hr : decimalLexical right) {f : Ordering → Ordering} (hf : Function.Injective f) :
    let l := Spelling.of left
    let r := Spelling.of right
    (compareMagnitude (left.toList.dropWhile (· = '-')) (right.toList.dropWhile (· = '-'))).map f =
        some (f (cmp l.magnitude r.magnitude)) ↔
      l.Plain ∧ r.Plain ∧ (l.whole.length = r.whole.length ∨ l.Outgrows r ∨ r.Outgrows l) := by
  intro l r
  obtain ⟨hlp, hrp, heq⟩ | ⟨hplain, heq⟩ := compareMagnitude_eq hl hr
  · rw [heq, Option.map_some, Option.some.injEq, hf.eq_iff,
      Spelling.compareParts_eq_iff (wellSpelled_of_lexical hl) (wellSpelled_of_lexical hr) hlp hrp]
    exact ⟨fun h => ⟨hlp, hrp, h⟩, fun h => h.2.2⟩
  · rw [heq, Option.map_none]
    exact ⟨fun h => absurd h (by simp), fun h => absurd ⟨h.1, h.2.1⟩ hplain⟩

lemma cmp_neg_neg (a b : ℚ) : cmp (-a) (-b) = (cmp a b).swap := by
  rw [cmp_swap]
  have hanti : StrictAnti fun q : ℚ => -q := fun _ _ h => neg_lt_neg h
  exact hanti.cmp_map_eq a b

/-- The comparison of admitted decimals answers the order of the numbers exactly when the spellings
are comparable. -/
lemma compareDecimal_eq_iff {left right : String} (hl : decimalLexical left)
    (hr : decimalLexical right) :
    compareDecimal left right = some (cmp (decimalValue left) (decimalValue right)) ↔
      (Spelling.of left).Comparable (Spelling.of right) := by
  have hls := wellSpelled_of_lexical hl
  have hrs := wellSpelled_of_lexical hr
  have hln : (Spelling.of left).negative = decide (left.toList.head? = some '-') := rfl
  have hrn : (Spelling.of right).negative = decide (right.toList.head? = some '-') := rfl
  unfold compareDecimal Spelling.Comparable decimalValue Spelling.value
  rw [hln, hrn]
  by_cases hleft : left.toList.head? = some '-' <;> by_cases hright : right.toList.head? = some '-'
  · simp only [hleft, hright, not_true_eq_false, if_false, if_true, decide_true, cmp_neg_neg]
    exact map_compareMagnitude_eq_iff hl hr fun a b h => by cases a <;> cases b <;> simp_all
  · simp only [hleft, hright, iff_false, not_true_eq_false, not_false_eq_true, if_true, decide_true,
      decide_false, Bool.true_eq_false, Bool.false_eq_true, if_false, Option.some.injEq]
    rw [eq_comm, cmp_eq_lt_iff]
    exact Spelling.neg_lt_iff hls hrs
  · simp only [hleft, hright, false_iff, not_true_eq_false, not_false_eq_true, if_true, decide_true,
      decide_false, Bool.false_eq_true, if_false, Option.some.injEq]
    rw [eq_comm, cmp_eq_gt_iff, Spelling.neg_lt_iff hrs hls]
    simp only [List.any_append, Bool.or_comm]
  · simp only [hleft, hright, not_true_eq_false, if_false, decide_false]
    exact map_compareMagnitude_eq_iff hl hr Function.injective_id

end Temper.ApplicationData
