import Mathlib
import Temper.Spec.AssertGrammar

/-!
# Texts of assertions

A text is a layout of tokens with any whitespace between them. Tokens that the grammar puts side by
side never run together, so every layout is read back. Trees are printed with as few parentheses as
the grammar allows.
-/

namespace Temper.Spec

/-! ### Layouts -/

def Tok.text : Tok → List Char
  | .lparen => ['(']
  | .rparen => [')']
  | .and => ['&', '&']
  | .or => ['|', '|']
  | .not => ['!']
  | .comma => [',']
  | .ident name => name.toList
  | .number digits => digits.toList
  | .cmpOp .gt => ['>']
  | .cmpOp .gte => ['>', '=']
  | .cmpOp .lt => ['<']
  | .cmpOp .lte => ['<', '=']
  | .cmpOp .eq => ['=', '=']

/-- An identifier of the expression language. -/
def IsName (name : String) : Prop :=
  ∃ c cs, name.toList = c :: cs ∧ isIdentStart c = true ∧ ∀ d ∈ cs, isIdentRest d = true

def Tok.Spellable : Tok → Prop
  | .ident name => IsName name
  | .number digits => ∃ c cs, digits.toList = c :: cs ∧ c.isDigit = true ∧
      ∀ d ∈ cs, d.isDigit = true
  | _ => True

def IsGap (cs : List Char) : Prop := ∀ c ∈ cs, isAsciiWhitespace c = true

/-- The tokens one after the other, with any whitespace around them. -/
inductive Layout : List Tok → List Char → Prop
  | nil {gap : List Char} (h : IsGap gap) : Layout [] gap
  | cons {gap text : List Char} {tok : Tok} {ts : List Tok} (h : IsGap gap) (hs : tok.Spellable)
    (hrest : Layout ts text) : Layout (tok :: ts) (gap ++ (tok.text ++ text))

def Tok.isWord : Tok → Bool
  | .ident _ | .number _ => true
  | _ => false

/-- Two tokens that do not run together, whatever stands between them. -/
def Joint (a b : Tok) : Prop := (b.isWord = true → a.isWord = false) ∧
  (b = .cmpOp .eq → a.isWord = true)

/-! ### Layouts are read back -/

lemma isIdentRest_of_isIdentStart {c : Char} (h : isIdentStart c = true) :
    isIdentRest c = true := by
  simp only [isIdentStart, isIdentRest, Char.isAlphanum, Bool.or_eq_true] at h ⊢
  tauto

lemma isIdentRest_of_isDigit {c : Char} (h : c.isDigit = true) : isIdentRest c = true := by
  simp [isIdentRest, Char.isAlphanum, h]

lemma not_isIdentStart_of_isDigit {c : Char} (h : c.isDigit = true) : isIdentStart c = false := by
  by_contra hstart
  rw [Bool.not_eq_false, isIdentStart, Bool.or_eq_true, decide_eq_true_eq] at hstart
  have hdigit : 48 ≤ c.val.toNat ∧ c.val.toNat ≤ 57 := by
    simpa [Char.isDigit, UInt32.le_iff_toNat_le] using h
  obtain hstart | rfl := hstart
  · have hletter : 97 ≤ c.val.toNat ∧ c.val.toNat ≤ 122 ∨
        65 ≤ c.val.toNat ∧ c.val.toNat ≤ 90 := by
      simpa [Char.isAlpha, Char.isUpper, Char.isLower, UInt32.le_iff_toNat_le, or_comm]
        using hstart
    omega
  · exact absurd h (by decide)

/-- Whitespace is neither part of a word nor of a sign. -/
lemma not_isIdentRest_of_whitespace {c : Char} (h : isAsciiWhitespace c = true) :
    isIdentRest c = false ∧ c ≠ '=' := by
  simp only [isAsciiWhitespace, Bool.or_eq_true, decide_eq_true_eq] at h
  obtain (((rfl | rfl) | rfl) | rfl) | rfl := h <;> decide

lemma isAsciiWhitespace_of_isIdentRest {c : Char} (h : isIdentRest c = true) :
    isAsciiWhitespace c = false := by
  by_contra hws
  rw [Bool.not_eq_false] at hws
  rw [(not_isIdentRest_of_whitespace hws).1] at h
  cases h

variable {tok : Tok}

/-- How the text of a token starts. -/
lemma Tok.Spellable.head (h : tok.Spellable) :
    ∃ c cs, tok.text = c :: cs ∧ (tok.isWord = false → isIdentRest c = false) ∧
      (c = '=' → tok = .cmpOp .eq) := by
  cases tok with
  | ident name =>
    obtain ⟨c, cs, hname, hc, -⟩ := h
    refine ⟨c, cs, hname, by simp [Tok.isWord], ?_⟩
    rintro rfl
    exact absurd hc (by decide)
  | number digits =>
    obtain ⟨c, cs, hdigits, hc, -⟩ := h
    refine ⟨c, cs, hdigits, by simp [Tok.isWord], ?_⟩
    rintro rfl
    exact absurd hc (by decide)
  | cmpOp op => cases op <;> exact ⟨_, _, rfl, by decide, by decide⟩
  | _ => exact ⟨_, _, rfl, by decide, by decide⟩

/-- What comes after a token does not go on with it. -/
def Apart (tok : Tok) (text : List Char) : Prop :=
  ∀ c cs, text = c :: cs → (tok.isWord = true → isIdentRest c = false) ∧
    (tok.isWord = false → c ≠ '=')

variable {ts : List Tok}

lemma Layout.apart {text : List Char} (h : Layout ts text)
    (hjoint : ∀ next ∈ ts.head?, Joint tok next) : Apart tok text := by
  intro c cs htext
  cases h with
  | nil hgap =>
    have hc : isAsciiWhitespace c = true := hgap c (by rw [htext]; simp)
    obtain ⟨hrest, heq⟩ := not_isIdentRest_of_whitespace hc
    exact ⟨fun _ => hrest, fun _ => heq⟩
  | @cons gap text' next ts' hgap hs hrest =>
    cases gap with
    | cons d gap =>
      obtain ⟨rfl, -⟩ := List.cons.inj htext
      have hc : isAsciiWhitespace d = true := hgap d (by simp)
      obtain ⟨hrest', heq⟩ := not_isIdentRest_of_whitespace hc
      exact ⟨fun _ => hrest', fun _ => heq⟩
    | nil =>
      obtain ⟨d, ds, hd, hword, hsign⟩ := hs.head
      rw [List.nil_append, hd, List.cons_append] at htext
      obtain ⟨rfl, -⟩ := List.cons.inj htext
      obtain ⟨hapart, heq⟩ := hjoint next (by simp)
      constructor
      · intro htok
        apply hword
        by_contra hnext
        rw [Bool.not_eq_false] at hnext
        rw [hapart hnext] at htok
        cases htok
      · rintro htok rfl
        rw [heq (hsign rfl)] at htok
        cases htok

lemma tokenizeFrom_gap {gap : List Char} (h : IsGap gap) (n : Nat) (text : List Char) :
    tokenizeFrom (gap.length + n) (gap ++ text) = tokenizeFrom n text := by
  induction gap with
  | nil => simp
  | cons c gap ih =>
    obtain ⟨hc, hgap⟩ := List.forall_mem_cons.mp h
    rw [List.length_cons, Nat.add_right_comm, List.cons_append, tokenizeFrom, if_pos hc]
    exact ih hgap

/-- A word ends where nothing goes on with it. -/
lemma span_word {p : Char → Bool} {cs text : List Char} (hcs : ∀ c ∈ cs, p c = true)
    (htext : ∀ c rest, text = c :: rest → p c = false) :
    (cs ++ text).takeWhile p = cs ∧ (cs ++ text).dropWhile p = text := by
  have hstop : text.takeWhile p = [] ∧ text.dropWhile p = text := by
    cases text with
    | nil => exact ⟨rfl, rfl⟩
    | cons c rest => simp [htext c rest rfl]
  rw [List.takeWhile_append_of_pos hcs, List.dropWhile_append_of_pos hcs, hstop.1, hstop.2]
  simp

lemma sign_text (hword : tok.isWord = false) {text : List Char} (hapart : Apart tok text) :
    sign (tok.text ++ text) = some (tok, text) := by
  cases tok with
  | ident => cases hword
  | number => cases hword
  | not =>
    cases text with
    | nil => rfl
    | cons c cs => simp [Tok.text, sign, (hapart c cs rfl).2 hword]
  | cmpOp op =>
    cases op with
    | gt =>
      cases text with
      | nil => rfl
      | cons c cs => simp [Tok.text, sign, (hapart c cs rfl).2 hword]
    | lt =>
      cases text with
      | nil => rfl
      | cons c cs => simp [Tok.text, sign, (hapart c cs rfl).2 hword]
    | _ => rfl
  | _ => rfl

lemma tokenizeFrom_tok (hs : tok.Spellable) {text : List Char} (hapart : Apart tok text) (n : Nat) :
    tokenizeFrom (n + 1) (tok.text ++ text) =
      (tokenizeFrom n text).bind fun ts => .ok (tok :: ts) := by
  cases hword : tok.isWord with
  | false =>
    obtain ⟨c, cs, hc, hrest, -⟩ := hs.head
    have hsign := sign_text hword hapart
    have hnot := hrest hword
    have hws : isAsciiWhitespace c = false := by
      cases tok with
      | ident => cases hword
      | number => cases hword
      | cmpOp op => cases op <;> cases hc <;> decide
      | _ => cases hc; decide
    have hstart : isIdentStart c = false := by
      by_contra hstart
      rw [Bool.not_eq_false] at hstart
      rw [isIdentRest_of_isIdentStart hstart] at hnot
      cases hnot
    have hdigit : c.isDigit = false := by
      by_contra hdigit
      rw [Bool.not_eq_false] at hdigit
      rw [isIdentRest_of_isDigit hdigit] at hnot
      cases hnot
    rw [hc, List.cons_append] at hsign ⊢
    rw [tokenizeFrom]
    simp only [hws, hstart, hdigit, hsign, Bool.false_eq_true, if_false]
    rfl
  | true =>
    cases tok with
    | ident name =>
      obtain ⟨c, cs, hname, hc, hcs⟩ := hs
      have hspan := span_word hcs fun d rest hd => (hapart d rest hd).1 hword
      have hofList : String.ofList (c :: cs) = name := by rw [← hname, String.ofList_toList]
      have hws := isAsciiWhitespace_of_isIdentRest (isIdentRest_of_isIdentStart hc)
      rw [Tok.text, hname, List.cons_append, tokenizeFrom, hspan.1, hspan.2, hofList]
      simp only [hws, hc, Bool.false_eq_true, if_false, if_true]
      rfl
    | number digits =>
      obtain ⟨c, cs, hdigits, hc, hcs⟩ := hs
      have hspan : (cs ++ text).takeWhile Char.isDigit = cs ∧
          (cs ++ text).dropWhile Char.isDigit = text := by
        apply span_word hcs
        intro d rest hd
        by_contra hdigit
        rw [Bool.not_eq_false] at hdigit
        have hrest := (hapart d rest hd).1 hword
        rw [isIdentRest_of_isDigit hdigit] at hrest
        cases hrest
      have hofList : String.ofList (c :: cs) = digits := by rw [← hdigits, String.ofList_toList]
      have hws := isAsciiWhitespace_of_isIdentRest (isIdentRest_of_isDigit hc)
      have hstart := not_isIdentStart_of_isDigit hc
      rw [Tok.text, hdigits, List.cons_append, tokenizeFrom, hspan.1, hspan.2, hofList]
      simp only [hws, hc, hstart, Bool.false_eq_true, if_false, if_true]
      rfl
    | _ => cases hword

/-- A layout of tokens that do not run together is read back. -/
theorem tokenizeFrom_layout {text : List Char} (h : Layout ts text) (hjoint : ts.IsChain Joint)
    {n : Nat} (hn : text.length ≤ n) : tokenizeFrom n text = .ok ts := by
  induction h generalizing n with
  | @nil gap hgap =>
    obtain ⟨k, rfl⟩ := Nat.exists_eq_add_of_le hn
    have hskip := tokenizeFrom_gap hgap k []
    rw [List.append_nil] at hskip
    rw [hskip]
    cases k <;> rfl
  | @cons gap text tok ts hgap hs hrest ih =>
    have hnext : ∀ next ∈ ts.head?, Joint tok next := by
      intro next hnext
      cases ts with
      | nil => cases hnext
      | cons b ts =>
        cases hnext
        exact (List.isChain_cons_cons.mp hjoint).1
    have htail : ts.IsChain Joint := hjoint.tail
    obtain ⟨c, cs, hc, -⟩ := hs.head
    rw [List.length_append, List.length_append, hc, List.length_cons] at hn
    obtain ⟨k, rfl⟩ := Nat.exists_eq_add_of_le (show gap.length + 1 ≤ n by omega)
    rw [Nat.add_assoc, tokenizeFrom_gap hgap, Nat.add_comm 1 k,
      tokenizeFrom_tok hs (hrest.apart hnext), ih htail (by omega)]
    rfl

/-! ### The tokenizer -/

lemma tokenizeFrom_settles (n : Nat) (text : List Char) (hn : text.length ≤ n) :
    Settles (tokenizeFrom n text) := by
  induction n generalizing text with
  | zero =>
    cases text with
    | nil => exact settles_ok _
    | cons c cs => simp at hn
  | succ n ih =>
    cases text with
    | nil => exact settles_ok _
    | cons c cs =>
      rw [List.length_cons] at hn
      have hdrop : ∀ p : Char → Bool, (cs.dropWhile p).length ≤ n := by
        intro p
        have := (List.dropWhile_suffix (l := cs) p).length_le
        omega
      rw [tokenizeFrom]
      split_ifs
      · exact ih cs (by omega)
      · exact (ih _ (hdrop _)).bind fun _ _ => settles_ok _
      · exact (ih _ (hdrop _)).bind fun _ _ => settles_ok _
      · split
        · rename_i tok rest hsign
          have hlength : rest.length ≤ cs.length := by
            unfold sign at hsign
            split at hsign <;> cases hsign <;> rename_i heq <;> cases heq <;> simp
          exact (ih _ (by omega)).bind fun _ _ => settles_ok _
        · exact settles_refused

lemma tokenize_spellable {n : Nat} {text : List Char} (h : tokenizeFrom n text = .ok ts) :
    ∀ tok ∈ ts, tok.Spellable := by
  induction n generalizing text ts with
  | zero =>
    cases text with
    | nil => cases h; simp
    | cons c cs => cases h
  | succ n ih =>
    cases text with
    | nil => cases h; simp
    | cons c cs =>
      rw [tokenizeFrom] at h
      split_ifs at h with hws hstart hdigit
      · exact ih h
      · obtain ⟨rest, hrest, h⟩ := Checks.bind_ok_iff.mp h
        cases h
        refine List.forall_mem_cons.mpr ⟨⟨c, cs.takeWhile isIdentRest, ?_, hstart, ?_⟩, ih hrest⟩
        · simp
        · exact fun d hd => List.mem_takeWhile_imp hd
      · obtain ⟨rest, hrest, h⟩ := Checks.bind_ok_iff.mp h
        cases h
        refine List.forall_mem_cons.mpr ⟨⟨c, cs.takeWhile Char.isDigit, ?_, hdigit, ?_⟩, ih hrest⟩
        · simp
        · exact fun d hd => List.mem_takeWhile_imp hd
      · split at h
        · rename_i tok rest' hsign
          obtain ⟨rest, hrest, h⟩ := Checks.bind_ok_iff.mp h
          cases h
          refine List.forall_mem_cons.mpr ⟨?_, ih hrest⟩
          unfold sign at hsign
          split at hsign <;> cases hsign <;> trivial
        · cases h

/-! ### Phrases do not run together -/

/-- The tokens that a phrase starts with. -/
def Opens : Tok → Prop
  | .ident _ | .lparen | .not => True
  | _ => False

/-- The tokens that a phrase ends with. -/
def Closes : Tok → Prop
  | .ident _ | .number _ | .rparen => True
  | _ => False

structure WellSpaced (ts : List Tok) : Prop where
  joint : ts.IsChain Joint
  opens : ∀ a ∈ ts.head?, Opens a
  closes : ∀ z ∈ ts.getLast?, Closes z
  ne_nil : ts ≠ []

lemma joint_sign {a b : Tok} (ha : a.isWord = false) (hb : Opens b) : Joint a b := by
  cases b <;> simp_all [Opens, Joint, Tok.isWord]

lemma joint_closes {a b : Tok} (hb : b.isWord = false) (heq : b ≠ .cmpOp .eq) : Joint a b :=
  ⟨fun h => absurd (hb.symm.trans h) (by simp), fun h => absurd h heq⟩

variable {t : ParsedAssert}

lemma Terminal.wellSpaced (h : Terminal t ts) : WellSpaced ts := by
  cases h with
  | counterCompare h hop =>
    refine ⟨?_, by simp [Opens], by simp [Closes], by simp⟩
    simp [Joint, Tok.isWord]
  | _ => exact ⟨by simp [Joint, Tok.isWord], by simp [Opens], by simp [Closes], by simp⟩

lemma WellSpaced.cons {tok : Tok} {ts : List Tok} (h : WellSpaced ts) (hword : tok.isWord = false)
    (hopens : Opens tok) : WellSpaced (tok :: ts) where
  joint := by
    obtain ⟨a, ts, rfl⟩ := List.exists_cons_of_ne_nil h.ne_nil
    exact List.isChain_cons_cons.mpr ⟨joint_sign hword (h.opens a (by simp)), h.joint⟩
  opens a ha := by
    cases ha
    exact hopens
  closes z hz := by
    obtain ⟨a, ts, rfl⟩ := List.exists_cons_of_ne_nil h.ne_nil
    rw [List.getLast?_cons_cons] at hz
    exact h.closes z hz
  ne_nil := by simp

lemma WellSpaced.close (h : WellSpaced ts) : WellSpaced (ts ++ [.rparen]) where
  joint := by
    refine List.isChain_append.mpr ⟨h.joint, by simp, ?_⟩
    intro a _ b hb
    cases hb
    exact joint_closes rfl (by simp)
  opens a ha := by
    obtain ⟨b, ts, rfl⟩ := List.exists_cons_of_ne_nil h.ne_nil
    exact h.opens a ha
  closes z hz := by
    rw [List.getLast?_append] at hz
    cases hz
    trivial
  ne_nil := by simp

lemma WellSpaced.join {us : List Tok} (h : WellSpaced ts) (h' : WellSpaced us)
    (hword : tok.isWord = false) (heq : tok ≠ .cmpOp .eq) : WellSpaced (ts ++ tok :: us) where
  joint := by
    obtain ⟨b, us, rfl⟩ := List.exists_cons_of_ne_nil h'.ne_nil
    refine List.isChain_append.mpr ⟨h.joint, ?_, ?_⟩
    · exact List.isChain_cons_cons.mpr ⟨joint_sign hword (h'.opens b (by simp)), h'.joint⟩
    · intro a _ c hc
      cases hc
      exact joint_closes hword heq
  opens a ha := by
    obtain ⟨b, ts, rfl⟩ := List.exists_cons_of_ne_nil h.ne_nil
    exact h.opens a ha
  closes z hz := by
    obtain ⟨b, us, rfl⟩ := List.exists_cons_of_ne_nil h'.ne_nil
    rw [List.getLast?_append_cons, List.getLast?_cons_cons] at hz
    exact h'.closes z hz
  ne_nil := by simp

lemma Derives.wellSpaced {phrase : Phrase} (h : Derives phrase ts) : WellSpaced ts := by
  induction h with
  | terminal h => exact h.wellSpaced
  | paren _ ih => exact ih.close.cons rfl trivial
  | not _ ih => exact ih.cons rfl trivial
  | moreAtoms _ _ ih ih' => exact ih.join ih' rfl (by simp)
  | moreConjs _ _ ih ih' => exact ih.join ih' rfl (by simp)
  | oneAtom _ ih | conj _ ih | oneConj _ ih | expr _ ih => exact ih

theorem runParser_of_layout {text : String} (h : Derives (.expr t) ts)
    (htext : Layout ts text.toList) : runParser text = .ok t := by
  have htokens : tokenize text = .ok ts :=
    tokenizeFrom_layout htext h.wellSpaced.joint (le_of_eq String.length_toList)
  rw [runParser, htokens]
  exact parseTokens_of_derives h

/-! ### Printing -/

mutual

/-- A tree as an atom: compound trees in parentheses. -/
def atomTokens : ParsedAssert → List Tok
  | .counterPositive var => [.ident var, .cmpOp .gt, .number "0"]
  | .noFurtherTransitions => [.ident "no_further_transitions"]
  | .orderingConstraint first second =>
    [.ident "ordering", .lparen, .ident first, .comma, .ident second, .rparen]
  | .neverState state => [.ident "never", .lparen, .ident state, .rparen]
  | .counterCompare var op value => [.ident var, .cmpOp op, .number (toString value)]
  | .boolRequired var true => [.ident var]
  | .boolRequired var false => [.not, .ident var]
  | .and parts => .lparen :: (andTokens parts ++ [.rparen])
  | .or parts => .lparen :: (orTokens parts ++ [.rparen])

def andTokens : List ParsedAssert → List Tok
  | [] => []
  | [t] => atomTokens t
  | t :: u :: parts => atomTokens t ++ .and :: andTokens (u :: parts)

/-- Conjunctions stand without parentheses. -/
def orTokens : List ParsedAssert → List Tok
  | [] => []
  | [.and parts] => andTokens parts
  | [t] => atomTokens t
  | .and ps :: u :: parts => andTokens ps ++ .or :: orTokens (u :: parts)
  | t :: u :: parts => atomTokens t ++ .or :: orTokens (u :: parts)

end

def ParsedAssert.tokens : ParsedAssert → List Tok
  | .and parts => andTokens parts
  | .or parts => orTokens parts
  | t => atomTokens t

/-- Tokens with a blank between them. -/
def spaced : List Tok → List Char
  | [] => []
  | [tok] => tok.text
  | tok :: ts => tok.text ++ ' ' :: spaced ts

def ParsedAssert.print (t : ParsedAssert) : String := String.ofList (spaced t.tokens)

mutual

/-- The trees of the grammar: names are names, a comparison with zero that stands for something
else does not occur, and groups have at least two parts. -/
def WellFormed : ParsedAssert → Prop
  | .counterPositive var => IsName var
  | .noFurtherTransitions => True
  | .orderingConstraint first second => IsName first ∧ IsName second
  | .neverState state => IsName state
  | .counterCompare var op value => IsName var ∧ value < 2 ^ 64 ∧ ¬ (op = .gt ∧ value = 0)
  | .boolRequired var _ => IsName var ∧ var ≠ "no_further_transitions"
  | .and parts => 2 ≤ parts.length ∧ AllWellFormed parts
  | .or parts => 2 ≤ parts.length ∧ AllWellFormed parts

def AllWellFormed : List ParsedAssert → Prop
  | [] => True
  | t :: parts => WellFormed t ∧ AllWellFormed parts

end

/-! ### Printed trees are derived -/

lemma Derives.of_atom (h : Derives (.atom t) ts) : Derives (.conj t) ts := .conj (.oneAtom h)

lemma Derives.of_conj (h : Derives (.conj t) ts) : Derives (.expr t) ts := .expr (.oneConj h)

variable {parts : List ParsedAssert}

lemma Derives.and (hlen : 2 ≤ parts.length) (h : Derives (.atoms parts) ts) :
    Derives (.conj (.and parts)) ts := by
  match parts, hlen with
  | first :: second :: parts, _ => exact .conj h

lemma Derives.or (hlen : 2 ≤ parts.length) (h : Derives (.conjs parts) ts) :
    Derives (.expr (.or parts)) ts := by
  match parts, hlen with
  | first :: second :: parts, _ => exact .expr h

lemma ne_nil_of_length {α : Type} {l : List α} (h : 2 ≤ l.length) : l ≠ [] := by
  rintro rfl
  simp at h

/-- A tree as a conjunction. -/
def conjTokens : ParsedAssert → List Tok
  | .and parts => andTokens parts
  | t => atomTokens t

lemma orTokens_singleton (t : ParsedAssert) : orTokens [t] = conjTokens t := by
  cases t <;> rw [orTokens] <;> simp [conjTokens]

lemma orTokens_cons (t u : ParsedAssert) (parts : List ParsedAssert) :
    orTokens (t :: u :: parts) = conjTokens t ++ .or :: orTokens (u :: parts) := by
  cases t <;> rw [orTokens] <;> simp [conjTokens]

mutual

theorem derives_tree : ∀ t : ParsedAssert, WellFormed t →
    Derives (.atom t) (atomTokens t) ∧ Derives (.conj t) (conjTokens t)
  | .counterPositive _, _ =>
    have h := Derives.terminal (.counterPositive (by decide +kernel))
    ⟨h, h.of_atom⟩
  | .noFurtherTransitions, _ => ⟨.terminal .noFurtherTransitions,
      .of_atom (.terminal .noFurtherTransitions)⟩
  | .orderingConstraint _ _, _ => ⟨.terminal .ordering, .of_atom (.terminal .ordering)⟩
  | .neverState _, _ => ⟨.terminal .never, .of_atom (.terminal .never)⟩
  | .counterCompare _ _ _, h =>
    have h := Derives.terminal (.counterCompare (parseUsize_toString h.2.1) h.2.2)
    ⟨h, h.of_atom⟩
  | .boolRequired _ true, h => ⟨.terminal (.bool h.2), .of_atom (.terminal (.bool h.2))⟩
  | .boolRequired _ false, h =>
    ⟨.not (.terminal (.bool h.2)), .of_atom (.not (.terminal (.bool h.2)))⟩
  | .and parts, h =>
    have hconj := Derives.and h.1 (derives_andTokens parts h.2 (ne_nil_of_length h.1))
    ⟨.paren hconj.of_conj, hconj⟩
  | .or parts, h =>
    have hatom := Derives.paren (.or h.1 (derives_orTokens parts h.2 (ne_nil_of_length h.1)))
    ⟨hatom, hatom.of_atom⟩

theorem derives_andTokens : ∀ parts : List ParsedAssert, AllWellFormed parts → parts ≠ [] →
    Derives (.atoms parts) (andTokens parts)
  | [], _, hne => absurd rfl hne
  | [t], h, _ => by
    rw [andTokens]
    exact .oneAtom (derives_tree t h.1).1
  | t :: u :: parts, h, _ => by
    rw [andTokens]
    exact .moreAtoms (derives_tree t h.1).1 (derives_andTokens (u :: parts) h.2 (by simp))

theorem derives_orTokens : ∀ parts : List ParsedAssert, AllWellFormed parts → parts ≠ [] →
    Derives (.conjs parts) (orTokens parts)
  | [], _, hne => absurd rfl hne
  | [t], h, _ => by
    rw [orTokens_singleton]
    exact .oneConj (derives_tree t h.1).2
  | t :: u :: parts, h, _ => by
    rw [orTokens_cons]
    exact .moreConjs (derives_tree t h.1).2 (derives_orTokens (u :: parts) h.2 (by simp))

end

theorem derives_tokens (h : WellFormed t) : Derives (.expr t) t.tokens := by
  cases t with
  | or parts => exact .or h.1 (derives_orTokens parts h.2 (ne_nil_of_length h.1))
  | _ => exact (derives_tree _ h).2.of_conj

/-! ### Derived trees are trees of the grammar -/

/-- What a phrase with tokens that can be spelled says about its tree. -/
def Phrase.WellFormed : Phrase → Prop
  | .atom t | .conj t | .expr t => Spec.WellFormed t
  | .atoms parts | .conjs parts => AllWellFormed parts

lemma parseUsize_lt {digits : String} {n : Nat} (h : parseUsize digits = some n) : n < 2 ^ 64 := by
  unfold parseUsize at h
  dsimp only at h
  split_ifs at h with _ hlt
  cases h
  exact hlt

lemma Terminal.wellFormed (h : Terminal t ts) (hs : ∀ tok ∈ ts, tok.Spellable) : WellFormed t := by
  cases h with
  | @counterPositive var digits h => exact hs (.ident var) (by simp)
  | @counterCompare var digits op value h hop =>
    exact ⟨hs (.ident var) (by simp), parseUsize_lt h, hop⟩
  | noFurtherTransitions => exact trivial
  | @ordering first second => exact ⟨hs (.ident first) (by simp), hs (.ident second) (by simp)⟩
  | @never state => exact hs (.ident state) (by simp)
  | @bool var h => exact ⟨hs (.ident var) (by simp), h⟩

lemma wellFormed_group {make : List ParsedAssert → ParsedAssert}
    (hmake : ∀ parts, WellFormed (make parts) ↔ 2 ≤ parts.length ∧ AllWellFormed parts)
    {first : ParsedAssert} (h : AllWellFormed (first :: parts)) :
    WellFormed (group make first parts) := by
  cases parts with
  | nil => exact h.1
  | cons second parts => exact (hmake _).mpr ⟨by simp, h⟩

lemma Derives.wellFormed {phrase : Phrase} (h : Derives phrase ts)
    (hs : ∀ tok ∈ ts, tok.Spellable) : phrase.WellFormed := by
  induction h with
  | terminal h => exact h.wellFormed hs
  | paren _ ih => exact ih fun tok htok => hs tok (by simp [htok])
  | not _ ih => exact ih fun tok htok => hs tok (by simp [htok])
  | oneAtom _ ih => exact ⟨ih hs, trivial⟩
  | oneConj _ ih => exact ⟨ih hs, trivial⟩
  | moreAtoms _ _ ih ih' =>
    exact ⟨ih fun tok htok => hs tok (by simp [htok]), ih' fun tok htok => hs tok (by simp [htok])⟩
  | moreConjs _ _ ih ih' =>
    exact ⟨ih fun tok htok => hs tok (by simp [htok]), ih' fun tok htok => hs tok (by simp [htok])⟩
  | conj _ ih => exact wellFormed_group (fun parts => Iff.rfl) (ih hs)
  | expr _ ih => exact wellFormed_group (fun parts => Iff.rfl) (ih hs)

/-! ### Printed trees are spelled -/

lemma spellable_toString (n : Nat) : (Tok.number (toString n)).Spellable := by
  have hdigits : ∀ c ∈ (toString n).toList, c.isDigit = true :=
    fun c hc => isDigit_of_mem_toString hc
  obtain ⟨c, cs, hlist⟩ : ∃ c cs, (toString n).toList = c :: cs := by
    apply List.exists_cons_of_ne_nil
    rw [Nat.toString_eq_ofList_toDigits, String.toList_ofList]
    exact Nat.toDigits_ne_nil
  rw [hlist] at hdigits
  exact ⟨c, cs, hlist, hdigits c (by simp), fun d hd => hdigits d (by simp [hd])⟩

lemma isName_keywords : IsName "ordering" ∧ IsName "never" ∧ IsName "no_further_transitions" :=
  ⟨⟨'o', "rdering".toList, rfl, rfl, List.all_eq_true.mp rfl⟩,
    ⟨'n', "ever".toList, rfl, rfl, List.all_eq_true.mp rfl⟩,
    ⟨'n', "o_further_transitions".toList, rfl, rfl, List.all_eq_true.mp rfl⟩⟩

@[simp] lemma Tok.spellable_lparen : Tok.lparen.Spellable := trivial

@[simp] lemma Tok.spellable_rparen : Tok.rparen.Spellable := trivial

@[simp] lemma Tok.spellable_comma : Tok.comma.Spellable := trivial

@[simp] lemma Tok.spellable_not : Tok.not.Spellable := trivial

@[simp] lemma Tok.spellable_cmpOp (op : AssertCompareOp) : (Tok.cmpOp op).Spellable := trivial

mutual

theorem spellable_tree : ∀ t : ParsedAssert, WellFormed t →
    (∀ tok ∈ atomTokens t, tok.Spellable) ∧ ∀ tok ∈ conjTokens t, tok.Spellable
  | .counterPositive var, h => by
    have hvar : (Tok.ident var).Spellable := h
    have hzero : (Tok.number "0").Spellable := spellable_toString 0
    simp [atomTokens, conjTokens, hvar, hzero]
  | .noFurtherTransitions, _ => by
    have hname : (Tok.ident "no_further_transitions").Spellable := isName_keywords.2.2
    simp [atomTokens, conjTokens, hname]
  | .orderingConstraint first second, h => by
    have hname : (Tok.ident "ordering").Spellable := isName_keywords.1
    have hfirst : (Tok.ident first).Spellable := h.1
    have hsecond : (Tok.ident second).Spellable := h.2
    simp [atomTokens, conjTokens, hname, hfirst, hsecond]
  | .neverState state, h => by
    have hname : (Tok.ident "never").Spellable := isName_keywords.2.1
    have hstate : (Tok.ident state).Spellable := h
    simp [atomTokens, conjTokens, hname, hstate]
  | .counterCompare var op value, h => by
    have hvar : (Tok.ident var).Spellable := h.1
    have hvalue : (Tok.number value.repr).Spellable := spellable_toString value
    simp [atomTokens, conjTokens, hvar, hvalue]
  | .boolRequired var true, h => by
    have hvar : (Tok.ident var).Spellable := h.1
    simp [atomTokens, conjTokens, hvar]
  | .boolRequired var false, h => by
    have hvar : (Tok.ident var).Spellable := h.1
    simp [atomTokens, conjTokens, hvar]
  | .and parts, h => by
    have hparts := spellable_andTokens parts h.2
    constructor
    · intro tok htok
      simp only [atomTokens, List.mem_cons, List.mem_append, List.not_mem_nil, or_false] at htok
      obtain rfl | htok | rfl := htok
      · trivial
      · exact hparts tok htok
      · trivial
    · exact hparts
  | .or parts, h => by
    have hparts := spellable_orTokens parts h.2
    have hatom : ∀ tok ∈ atomTokens (.or parts), tok.Spellable := by
      intro tok htok
      simp only [atomTokens, List.mem_cons, List.mem_append, List.not_mem_nil, or_false] at htok
      obtain rfl | htok | rfl := htok
      · trivial
      · exact hparts tok htok
      · trivial
    exact ⟨hatom, hatom⟩

theorem spellable_andTokens : ∀ parts : List ParsedAssert, AllWellFormed parts →
    ∀ tok ∈ andTokens parts, tok.Spellable
  | [], _ => by simp [andTokens]
  | [t], h => by
    rw [andTokens]
    exact (spellable_tree t h.1).1
  | t :: u :: parts, h => by
    intro tok htok
    rw [andTokens, List.mem_append, List.mem_cons] at htok
    obtain htok | rfl | htok := htok
    · exact (spellable_tree t h.1).1 tok htok
    · trivial
    · exact spellable_andTokens (u :: parts) h.2 tok htok

theorem spellable_orTokens : ∀ parts : List ParsedAssert, AllWellFormed parts →
    ∀ tok ∈ orTokens parts, tok.Spellable
  | [], _ => by simp [orTokens]
  | [t], h => by
    rw [orTokens_singleton]
    exact (spellable_tree t h.1).2
  | t :: u :: parts, h => by
    intro tok htok
    rw [orTokens_cons, List.mem_append, List.mem_cons] at htok
    obtain htok | rfl | htok := htok
    · exact (spellable_tree t h.1).2 tok htok
    · trivial
    · exact spellable_orTokens (u :: parts) h.2 tok htok

end

lemma spellable_tokens (h : WellFormed t) : ∀ tok ∈ t.tokens, tok.Spellable := by
  cases t with
  | or parts => exact spellable_orTokens parts h.2
  | _ => exact (spellable_tree _ h).2

lemma blank_isGap : IsGap [' '] := by
  intro c hc
  rw [List.mem_singleton.mp hc]
  rfl

lemma layout_spaced (h : ∀ tok ∈ ts, tok.Spellable) {gap : List Char} (hgap : IsGap gap) :
    Layout ts (gap ++ spaced ts) := by
  induction ts generalizing gap with
  | nil =>
    rw [spaced, List.append_nil]
    exact .nil hgap
  | cons tok ts ih =>
    obtain ⟨htok, hts⟩ := List.forall_mem_cons.mp h
    cases ts with
    | nil =>
      have hlast : Layout [tok] (gap ++ (tok.text ++ [])) :=
        .cons hgap htok (.nil (by simp [IsGap]))
      rwa [List.append_nil] at hlast
    | cons u ts => exact .cons hgap htok (ih hts blank_isGap)

lemma layout_print (h : WellFormed t) : Layout t.tokens t.print.toList := by
  have hlayout : Layout t.tokens ([] ++ spaced t.tokens) :=
    layout_spaced (spellable_tokens h) (by simp [IsGap])
  rw [ParsedAssert.print, String.toList_ofList]
  exact hlayout

lemma parseAssertExpr_eq_some {text : String} :
    parseAssertExpr text = some t ↔ runParser text = .ok t := by
  unfold parseAssertExpr
  cases runParser text <;> simp [Except.toOption]

/-- The parser comes to an end on every text. It reads every layout of every derivation of the
grammar as the derived tree. Every tree of the grammar has such a layout, and whatever the parser
gives is a tree of the grammar that it gives again when the tree is printed. -/
theorem parser_implements_grammar :
    (∀ text, runParser text ≠ .error .turns) ∧
    (∀ t ts (text : String), Derives (.expr t) ts → Layout ts text.toList →
      parseAssertExpr text = some t) ∧
    (∀ t, WellFormed t → Derives (.expr t) t.tokens ∧ Layout t.tokens t.print.toList) ∧
    ∀ text t, parseAssertExpr text = some t → WellFormed t ∧ parseAssertExpr t.print = some t := by
  refine ⟨?_, ?_, ?_, ?_⟩
  · intro text
    have htokens : Settles (tokenize text) :=
      tokenizeFrom_settles _ _ (le_of_eq String.length_toList)
    exact htokens.bind fun ts _ => parseTokens_settles ts
  · intro t ts text hderives hlayout
    exact parseAssertExpr_eq_some.mpr (runParser_of_layout hderives hlayout)
  · intro t h
    exact ⟨derives_tokens h, layout_print h⟩
  · intro text t h
    rw [parseAssertExpr_eq_some] at h
    obtain ⟨ts, htokens, hparse⟩ := Checks.bind_ok_iff.mp h
    have hderives := derives_of_parseTokens hparse
    have hwell : WellFormed t := hderives.wellFormed (tokenize_spellable htokens)
    refine ⟨hwell, ?_⟩
    rw [parseAssertExpr_eq_some]
    exact runParser_of_layout (derives_tokens hwell) (layout_print hwell)

/-- A disjunction of a variable and a conjunction. -/
def sample : ParsedAssert :=
  .or [.boolRequired "a" true, .and [.boolRequired "b" true, .boolRequired "c" false]]

/-- `&&` binds tighter than `||`. -/
theorem sample_is_read_back : sample.print = "a || b && ! c" ∧
    parseAssertExpr "a || b && ! c" = some sample := by
  obtain ⟨-, hread, hprint, -⟩ := parser_implements_grammar
  have hname : ∀ c : Char, isIdentStart c = true → IsName (String.ofList [c]) := by
    intro c hc
    exact ⟨c, [], by simp, hc, by simp⟩
  have hwell : WellFormed sample :=
    ⟨by decide, ⟨hname 'a' rfl, by decide⟩, ⟨by decide, ⟨hname 'b' rfl, by decide⟩,
      ⟨hname 'c' rfl, by decide⟩, trivial⟩, trivial⟩
  obtain ⟨hderives, hlayout⟩ := hprint sample hwell
  have htext : sample.print = "a || b && ! c" := by decide +kernel
  refine ⟨htext, ?_⟩
  rw [← htext]
  exact hread _ _ _ hderives hlayout

end Temper.Spec
