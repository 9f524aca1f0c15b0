import Mathlib
import Temper.Lib.Checks
import Temper.Spec.Assert

/-!
# The grammar of assertions

The documented grammar, with the tree of each phrase, and the layouts of a list of tokens. The
parser reads exactly the texts of the grammar and gives the tree that the grammar gives.
-/

namespace Temper.Spec

open ParsedAssert

/-! ### The grammar -/

inductive Terminal : ParsedAssert → List Tok → Prop
  | counterPositive {var digits : String} (h : parseUsize digits = some 0) :
    Terminal (.counterPositive var) [.ident var, .cmpOp .gt, .number digits]
  | counterCompare {var digits : String} {op : AssertCompareOp} {value : Nat}
    (h : parseUsize digits = some value) (hop : ¬ (op = .gt ∧ value = 0)) :
    Terminal (.counterCompare var op value) [.ident var, .cmpOp op, .number digits]
  | noFurtherTransitions :
    Terminal .noFurtherTransitions [.ident "no_further_transitions"]
  | ordering {first second : String} : Terminal (.orderingConstraint first second)
    [.ident "ordering", .lparen, .ident first, .comma, .ident second, .rparen]
  | never {state : String} :
    Terminal (.neverState state) [.ident "never", .lparen, .ident state, .rparen]
  | bool {var : String} (h : var ≠ "no_further_transitions") :
    Terminal (.boolRequired var true) [.ident var]

/-- The phrases of the grammar, with their trees. -/
inductive Phrase
  | atom (t : ParsedAssert)
  -- atoms with `&&` between them
  | atoms (parts : List ParsedAssert)
  | conj (t : ParsedAssert)
  -- conjunctions with `||` between them
  | conjs (parts : List ParsedAssert)
  | expr (t : ParsedAssert)

inductive Derives : Phrase → List Tok → Prop
  | terminal {t : ParsedAssert} {ts : List Tok} (h : Terminal t ts) : Derives (.atom t) ts
  | paren {t : ParsedAssert} {ts : List Tok} (h : Derives (.expr t) ts) :
    Derives (.atom t) (.lparen :: (ts ++ [.rparen]))
  | not {var : String} {expect : Bool} {ts : List Tok}
    (h : Derives (.atom (.boolRequired var expect)) ts) :
    Derives (.atom (.boolRequired var !expect)) (.not :: ts)
  | oneAtom {t : ParsedAssert} {ts : List Tok} (h : Derives (.atom t) ts) : Derives (.atoms [t]) ts
  | moreAtoms {t : ParsedAssert} {parts : List ParsedAssert} {ts us : List Tok}
    (h : Derives (.atom t) ts) (hrest : Derives (.atoms parts) us) :
    Derives (.atoms (t :: parts)) (ts ++ .and :: us)
  | conj {first : ParsedAssert} {parts : List ParsedAssert} {ts : List Tok}
    (h : Derives (.atoms (first :: parts)) ts) : Derives (.conj (group .and first parts)) ts
  | oneConj {t : ParsedAssert} {ts : List Tok} (h : Derives (.conj t) ts) : Derives (.conjs [t]) ts
  | moreConjs {t : ParsedAssert} {parts : List ParsedAssert} {ts us : List Tok}
    (h : Derives (.conj t) ts) (hrest : Derives (.conjs parts) us) :
    Derives (.conjs (t :: parts)) (ts ++ .or :: us)
  | expr {first : ParsedAssert} {parts : List ParsedAssert} {ts : List Tok}
    (h : Derives (.conjs (first :: parts)) ts) : Derives (.expr (group .or first parts)) ts

/-! ### What the grammar derives is parsed -/

/-- What may stand behind an atom. -/
def Ends : List Tok → Prop
  | [] => True
  | .and :: _ | .or :: _ | .rparen :: _ => True
  | _ => False

/-- What may stand behind a conjunction. -/
def EndsConj : List Tok → Prop
  | [] => True
  | .or :: _ | .rparen :: _ => True
  | _ => False

/-- What may stand behind an expression. -/
def EndsExpr : List Tok → Prop
  | [] => True
  | .rparen :: _ => True
  | _ => False

variable {rest : List Tok}

lemma EndsExpr.endsConj (h : EndsExpr rest) : EndsConj rest := by
  unfold EndsExpr at h
  split at h
  · trivial
  · trivial
  · exact h.elim

lemma EndsConj.ends (h : EndsConj rest) : Ends rest := by
  unfold EndsConj at h
  split at h
  · trivial
  · trivial
  · trivial
  · exact h.elim

lemma parseNamed_of_ends {name : String} (h : Ends rest) :
    parseNamed name rest = if name = "no_further_transitions" then .ok (.noFurtherTransitions, rest)
      else .ok (.boolRequired name true, rest) := by
  unfold parseNamed
  split
  · exact h.elim
  · rfl

lemma parseTerminal_ident_of_ends {name : String} (h : Ends rest) :
    parseTerminal (.ident name :: rest) = parseNamed name rest := by
  unfold parseTerminal
  split
  · rename_i heq
    cases heq
    exact h.elim
  · rename_i heq
    cases heq
    rfl
  · rename_i hno
    exact absurd rfl (hno name rest)

variable {t : ParsedAssert} {ts : List Tok}

lemma Terminal.parse (h : Terminal t ts) (hrest : Ends rest) :
    parseTerminal (ts ++ rest) = .ok (t, rest) := by
  cases h with
  | counterPositive h => simp [parseTerminal, parseNamed, h]
  | counterCompare h hop => simp [parseTerminal, parseNamed, h, hop]
  | noFurtherTransitions =>
    rw [List.singleton_append, parseTerminal_ident_of_ends hrest, parseNamed_of_ends hrest]
    rfl
  | ordering => rfl
  | never => rfl
  | bool h =>
    rw [List.singleton_append, parseTerminal_ident_of_ends hrest, parseNamed_of_ends hrest,
      if_neg h]

lemma parseAtom_terminal (h : Terminal t ts) (hrest : Ends rest) (n : Nat) :
    parseAtom (n + 1) (ts ++ rest) = .ok (t, rest) := by
  rw [← h.parse hrest]
  cases h <;> simp [parseAtom]

/-- The parser reads a phrase in front of what may stand behind it, with three turns for each
token. -/
def Reads : Phrase → List Tok → Prop
  | .atom t, ts => ∀ rest n, Ends rest → 3 * ts.length + 1 ≤ n →
    parseAtom n (ts ++ rest) = .ok (t, rest)
  | .atoms parts, ts => ∀ rest n, EndsConj rest → 3 * ts.length + 2 ≤ n →
    ∃ first others mid, parts = first :: others ∧
      parseAtom n (ts ++ rest) = .ok (first, mid) ∧ parseAndRest n mid = .ok (others, rest)
  | .conj t, ts => ∀ rest n, EndsConj rest → 3 * ts.length + 3 ≤ n →
    parseAnd n (ts ++ rest) = .ok (t, rest)
  | .conjs parts, ts => ∀ rest n, EndsExpr rest → 3 * ts.length + 3 ≤ n →
    ∃ first others mid, parts = first :: others ∧
      parseAnd n (ts ++ rest) = .ok (first, mid) ∧ parseOrRest n mid = .ok (others, rest)
  | .expr t, ts => ∀ rest n, EndsExpr rest → 3 * ts.length + 4 ≤ n →
    parseOr n (ts ++ rest) = .ok (t, rest)

lemma parseAndRest_of_endsConj (h : EndsConj rest) (n : Nat) :
    parseAndRest (n + 1) rest = .ok ([], rest) := by
  unfold EndsConj at h
  split at h
  · rfl
  · rfl
  · rfl
  · exact h.elim

lemma parseOrRest_of_endsExpr (h : EndsExpr rest) (n : Nat) :
    parseOrRest (n + 1) rest = .ok ([], rest) := by
  unfold EndsExpr at h
  split at h
  · rfl
  · rfl
  · exact h.elim

theorem Derives.reads {phrase : Phrase} (h : Derives phrase ts) : Reads phrase ts := by
  induction h with
  | terminal h =>
    intro rest n hrest hn
    obtain ⟨n, rfl⟩ := Nat.exists_eq_add_of_le' (show 1 ≤ n by omega)
    exact parseAtom_terminal h hrest n
  | @paren t ts h ih =>
    intro rest n hrest hn
    simp only [List.length_cons, List.length_append, List.length_nil] at hn
    obtain ⟨n, rfl⟩ := Nat.exists_eq_add_of_le' (show 1 ≤ n by omega)
    have hinner := ih (.rparen :: rest) n trivial (by omega)
    have hsplit : .lparen :: (ts ++ [.rparen]) ++ rest = .lparen :: (ts ++ .rparen :: rest) := by
      simp
    rw [hsplit, parseAtom, hinner]
    rfl
  | not h ih =>
    intro rest n hrest hn
    simp only [List.length_cons] at hn
    obtain ⟨n, rfl⟩ := Nat.exists_eq_add_of_le' (show 1 ≤ n by omega)
    have hinner := ih rest n hrest (by omega)
    rw [List.cons_append, parseAtom, hinner]
    rfl
  | @oneAtom t ts h ih =>
    intro rest n hrest hn
    obtain ⟨n, rfl⟩ := Nat.exists_eq_add_of_le' (show 1 ≤ n by omega)
    exact ⟨t, [], rest, rfl, ih rest _ hrest.ends (by omega), parseAndRest_of_endsConj hrest n⟩
  | @moreAtoms t parts ts us h hrest ih ihrest =>
    intro rest n hends hn
    simp only [List.length_cons, List.length_append] at hn
    obtain ⟨n, rfl⟩ := Nat.exists_eq_add_of_le' (show 1 ≤ n by omega)
    obtain ⟨first, others, mid, rfl, hfirst, hothers⟩ := ihrest rest n hends (by omega)
    refine ⟨t, first :: others, .and :: (us ++ rest), rfl, ?_, ?_⟩
    · have hatom := ih (.and :: (us ++ rest)) (n + 1) trivial (by omega)
      simpa using hatom
    · rw [parseAndRest, hfirst]
      simp [hothers, bind, Except.bind]
  | conj h ih =>
    intro rest n hrest hn
    obtain ⟨n, rfl⟩ := Nat.exists_eq_add_of_le' (show 1 ≤ n by omega)
    obtain ⟨first, others, mid, heq, hfirst, hothers⟩ := ih rest n hrest (by omega)
    cases heq
    rw [parseAnd, hfirst]
    simp [hothers, bind, Except.bind]
  | @oneConj t ts h ih =>
    intro rest n hrest hn
    obtain ⟨n, rfl⟩ := Nat.exists_eq_add_of_le' (show 1 ≤ n by omega)
    exact ⟨t, [], rest, rfl, ih rest _ hrest.endsConj (by omega), parseOrRest_of_endsExpr hrest n⟩
  | @moreConjs t parts ts us h hrest ih ihrest =>
    intro rest n hends hn
    simp only [List.length_cons, List.length_append] at hn
    obtain ⟨n, rfl⟩ := Nat.exists_eq_add_of_le' (show 1 ≤ n by omega)
    obtain ⟨first, others, mid, rfl, hfirst, hothers⟩ := ihrest rest n hends (by omega)
    refine ⟨t, first :: others, .or :: (us ++ rest), rfl, ?_, ?_⟩
    · have hconj := ih (.or :: (us ++ rest)) (n + 1) trivial (by omega)
      simpa using hconj
    · rw [parseOrRest, hfirst]
      simp [hothers, bind, Except.bind]
  | expr h ih =>
    intro rest n hrest hn
    obtain ⟨n, rfl⟩ := Nat.exists_eq_add_of_le' (show 1 ≤ n by omega)
    obtain ⟨first, others, mid, heq, hfirst, hothers⟩ := ih rest n hrest (by omega)
    cases heq
    rw [parseOr, hfirst]
    simp [hothers, bind, Except.bind]

theorem parseTokens_of_derives (h : Derives (.expr t) ts) :
    parseTokens (parserTurns ts) ts = .ok t := by
  have hread := h.reads [] (parserTurns ts) trivial (by rw [parserTurns])
  rw [List.append_nil] at hread
  rw [parseTokens, hread]
  rfl

/-! ### What is parsed is derived -/

lemma parseNamed_sound {name : String} (h : parseNamed name ts = .ok (t, rest)) :
    ∃ us, ts = us ++ rest ∧ Terminal t (.ident name :: us) := by
  unfold parseNamed at h
  split at h
  · rename_i op digits rest'
    split at h
    · cases h
    · rename_i value hdigits
      split_ifs at h with hzero
      · cases h
        obtain ⟨rfl, rfl⟩ := hzero
        exact ⟨[.cmpOp .gt, .number digits], rfl, .counterPositive hdigits⟩
      · cases h
        exact ⟨[.cmpOp op, .number digits], rfl, .counterCompare hdigits hzero⟩
  · split_ifs at h with hname
    · cases h
      subst hname
      exact ⟨[], rfl, .noFurtherTransitions⟩
    · cases h
      exact ⟨[], rfl, .bool hname⟩

lemma parseTerminal_sound (h : parseTerminal ts = .ok (t, rest)) :
    ∃ us, ts = us ++ rest ∧ Terminal t us := by
  unfold parseTerminal at h
  split at h
  · rename_i name ts'
    split_ifs at h with hordering hnever
    · subst hordering
      unfold parseOrdering at h
      split at h
      · cases h
        exact ⟨_, rfl, .ordering⟩
      · cases h
    · subst hnever
      unfold parseNever at h
      split at h
      · cases h
        exact ⟨_, rfl, .never⟩
      · cases h
    · obtain ⟨us, heq, hterminal⟩ := parseNamed_sound h
      exact ⟨.ident name :: us, by rw [heq]; rfl, hterminal⟩
  · rename_i name ts' _
    obtain ⟨us, heq, hterminal⟩ := parseNamed_sound h
    exact ⟨.ident name :: us, by rw [heq]; rfl, hterminal⟩
  · cases h

/-- What the parser reads in a number of turns is derived. -/
structure Sound (n : Nat) : Prop where
  atom : ∀ ts rest t, parseAtom n ts = .ok (t, rest) →
    ∃ us, ts = us ++ rest ∧ Derives (.atom t) us
  andRest : ∀ ts rest parts, parseAndRest n ts = .ok (parts, rest) →
    ts = rest ∧ parts = [] ∨ ∃ us, ts = .and :: (us ++ rest) ∧ Derives (.atoms parts) us
  conj : ∀ ts rest t, parseAnd n ts = .ok (t, rest) →
    ∃ us, ts = us ++ rest ∧ Derives (.conj t) us
  orRest : ∀ ts rest parts, parseOrRest n ts = .ok (parts, rest) →
    ts = rest ∧ parts = [] ∨ ∃ us, ts = .or :: (us ++ rest) ∧ Derives (.conjs parts) us
  expr : ∀ ts rest t, parseOr n ts = .ok (t, rest) →
    ∃ us, ts = us ++ rest ∧ Derives (.expr t) us

namespace Sound

variable {n : Nat}

lemma zero : Sound 0 := by
  constructor
  all_goals
    intro ts rest t h
    simp [parseAtom, parseAndRest, parseAnd, parseOrRest, parseOr] at h

lemma atom_succ (ih : Sound n) (ts rest : List Tok) (t : ParsedAssert)
    (h : parseAtom (n + 1) ts = .ok (t, rest)) : ∃ us, ts = us ++ rest ∧ Derives (.atom t) us := by
  unfold parseAtom at h
  split at h
  · cases ‹n + 1 = 0›
  · rename_i m ts' hm
    cases hm
    obtain ⟨⟨inner, ts₁⟩, hinner, h⟩ := Checks.bind_ok_iff.mp h
    obtain ⟨ts₂, hclose, h⟩ := Checks.bind_ok_iff.mp h
    cases h
    obtain ⟨us, rfl, hderives⟩ := ih.expr _ _ _ hinner
    unfold closeParen at hclose
    split at hclose
    · rename_i hrest
      cases hclose
      exact ⟨.lparen :: (us ++ [.rparen]), by simp, .paren hderives⟩
    · cases hclose
  · rename_i m ts' hm
    cases hm
    obtain ⟨⟨inner, ts₁⟩, hinner, h⟩ := Checks.bind_ok_iff.mp h
    obtain ⟨negated, hnegated, h⟩ := Checks.bind_ok_iff.mp h
    cases h
    obtain ⟨us, rfl, hderives⟩ := ih.atom _ _ _ hinner
    cases inner with
    | boolRequired var expect =>
      cases hnegated
      exact ⟨.not :: us, rfl, .not hderives⟩
    | _ => cases hnegated
  · obtain ⟨us, heq, hterminal⟩ := parseTerminal_sound h
    exact ⟨us, heq, .terminal hterminal⟩

lemma andRest_succ (ih : Sound n) (ts rest : List Tok) (parts : List ParsedAssert)
    (h : parseAndRest (n + 1) ts = .ok (parts, rest)) :
    ts = rest ∧ parts = [] ∨ ∃ us, ts = .and :: (us ++ rest) ∧ Derives (.atoms parts) us := by
  unfold parseAndRest at h
  split at h
  · cases ‹n + 1 = 0›
  · rename_i m ts' hm
    cases hm
    obtain ⟨⟨part, ts₁⟩, hpart, h⟩ := Checks.bind_ok_iff.mp h
    obtain ⟨⟨others, ts₂⟩, hothers, h⟩ := Checks.bind_ok_iff.mp h
    cases h
    obtain ⟨us, rfl, hderives⟩ := ih.atom _ _ _ hpart
    obtain ⟨rfl, rfl⟩ | ⟨us', rfl, hrest⟩ := ih.andRest _ _ _ hothers
    · exact .inr ⟨us, rfl, .oneAtom hderives⟩
    · exact .inr ⟨us ++ .and :: us', by simp, .moreAtoms hderives hrest⟩
  · cases h
    exact .inl ⟨rfl, rfl⟩

lemma conj_succ (ih : Sound n) (ts rest : List Tok) (t : ParsedAssert)
    (h : parseAnd (n + 1) ts = .ok (t, rest)) : ∃ us, ts = us ++ rest ∧ Derives (.conj t) us := by
  rw [parseAnd] at h
  obtain ⟨⟨first, ts₁⟩, hfirst, h⟩ := Checks.bind_ok_iff.mp h
  obtain ⟨⟨parts, ts₂⟩, hparts, h⟩ := Checks.bind_ok_iff.mp h
  cases h
  obtain ⟨us, rfl, hderives⟩ := ih.atom _ _ _ hfirst
  obtain ⟨rfl, rfl⟩ | ⟨us', rfl, hrest⟩ := ih.andRest _ _ _ hparts
  · exact ⟨us, rfl, .conj (.oneAtom hderives)⟩
  · exact ⟨us ++ .and :: us', by simp, .conj (.moreAtoms hderives hrest)⟩

lemma orRest_succ (ih : Sound n) (ts rest : List Tok) (parts : List ParsedAssert)
    (h : parseOrRest (n + 1) ts = .ok (parts, rest)) :
    ts = rest ∧ parts = [] ∨ ∃ us, ts = .or :: (us ++ rest) ∧ Derives (.conjs parts) us := by
  unfold parseOrRest at h
  split at h
  · cases ‹n + 1 = 0›
  · rename_i m ts' hm
    cases hm
    obtain ⟨⟨part, ts₁⟩, hpart, h⟩ := Checks.bind_ok_iff.mp h
    obtain ⟨⟨others, ts₂⟩, hothers, h⟩ := Checks.bind_ok_iff.mp h
    cases h
    obtain ⟨us, rfl, hderives⟩ := ih.conj _ _ _ hpart
    obtain ⟨rfl, rfl⟩ | ⟨us', rfl, hrest⟩ := ih.orRest _ _ _ hothers
    · exact .inr ⟨us, rfl, .oneConj hderives⟩
    · exact .inr ⟨us ++ .or :: us', by simp, .moreConjs hderives hrest⟩
  · cases h
    exact .inl ⟨rfl, rfl⟩

lemma expr_succ (ih : Sound n) (ts rest : List Tok) (t : ParsedAssert)
    (h : parseOr (n + 1) ts = .ok (t, rest)) : ∃ us, ts = us ++ rest ∧ Derives (.expr t) us := by
  rw [parseOr] at h
  obtain ⟨⟨first, ts₁⟩, hfirst, h⟩ := Checks.bind_ok_iff.mp h
  obtain ⟨⟨parts, ts₂⟩, hparts, h⟩ := Checks.bind_ok_iff.mp h
  cases h
  obtain ⟨us, rfl, hderives⟩ := ih.conj _ _ _ hfirst
  obtain ⟨rfl, rfl⟩ | ⟨us', rfl, hrest⟩ := ih.orRest _ _ _ hparts
  · exact ⟨us, rfl, .expr (.oneConj hderives)⟩
  · exact ⟨us ++ .or :: us', by simp, .expr (.moreConjs hderives hrest)⟩

end Sound

theorem sound (n : Nat) : Sound n := by
  induction n with
  | zero => exact .zero
  | succ n ih => exact ⟨ih.atom_succ, ih.andRest_succ, ih.conj_succ, ih.orRest_succ, ih.expr_succ⟩

theorem derives_of_parseTokens {turns : Nat} (h : parseTokens turns ts = .ok t) :
    Derives (.expr t) ts := by
  obtain ⟨⟨result, rest⟩, hparse, hend⟩ := Checks.bind_ok_iff.mp h
  obtain ⟨us, rfl, hderives⟩ := (sound turns).expr _ _ _ hparse
  cases rest with
  | nil =>
    cases hend
    simpa using hderives
  | cons tok rest => cases hend

/-! ### Turns -/

lemma Derives.ne_nil {phrase : Phrase} (h : Derives phrase ts) : ts ≠ [] := by
  induction h with
  | terminal h => cases h <;> simp
  | paren | not | moreAtoms | moreConjs => simp
  | oneAtom _ ih | conj _ ih | oneConj _ ih | expr _ ih => exact ih

lemma Derives.length_lt {phrase : Phrase} {us : List Tok} (h : Derives phrase us) :
    rest.length < (us ++ rest).length := by
  have hpos : 0 < us.length := List.length_pos_iff.mpr h.ne_nil
  rw [List.length_append]
  omega

/-- A reader that does not run out of turns. -/
def Settles {α : Type} (r : Except Stop α) : Prop := r ≠ .error .turns

lemma settles_ok {α : Type} (a : α) : Settles (.ok a : Except Stop α) := by simp [Settles]

lemma settles_refused {α : Type} : Settles (.error .refused : Except Stop α) := by simp [Settles]

lemma Settles.bind {α β : Type} {r : Except Stop α} {f : α → Except Stop β} (hr : Settles r)
    (hf : ∀ a, r = .ok a → Settles (f a)) : Settles (r >>= f) := by
  cases r with
  | ok a => exact hf a rfl
  | error e =>
    cases e with
    | turns => exact absurd rfl hr
    | refused => exact settles_refused

lemma parseTerminal_settles (ts : List Tok) : Settles (parseTerminal ts) := by
  have hnamed : ∀ name ts, Settles (parseNamed name ts) := by
    intro name ts
    unfold parseNamed
    split
    · split
      · exact settles_refused
      · split_ifs <;> exact settles_ok _
    · split_ifs <;> exact settles_ok _
  unfold parseTerminal
  split
  · split_ifs
    · unfold parseOrdering
      split
      · exact settles_ok _
      · exact settles_refused
    · unfold parseNever
      split
      · exact settles_ok _
      · exact settles_refused
    · exact hnamed _ _
  · exact hnamed _ _
  · exact settles_refused

/-- With these turns the parser comes to an end. -/
structure Enough (n : Nat) : Prop where
  atom : ∀ ts : List Tok, 3 * ts.length + 1 ≤ n → Settles (parseAtom n ts)
  andRest : ∀ ts : List Tok, 3 * ts.length + 1 ≤ n → Settles (parseAndRest n ts)
  conj : ∀ ts : List Tok, 3 * ts.length + 2 ≤ n → Settles (parseAnd n ts)
  orRest : ∀ ts : List Tok, 3 * ts.length + 1 ≤ n → Settles (parseOrRest n ts)
  expr : ∀ ts : List Tok, 3 * ts.length + 3 ≤ n → Settles (parseOr n ts)

namespace Enough

variable {n : Nat}

lemma atom_succ (ih : Enough n) (ts : List Tok) (hn : 3 * ts.length + 1 ≤ n + 1) :
    Settles (parseAtom (n + 1) ts) := by
  unfold parseAtom
  split
  · cases ‹n + 1 = 0›
  · rename_i m ts' hm
    cases hm
    rw [List.length_cons] at hn
    apply (ih.expr ts' (by omega)).bind
    rintro ⟨inner, ts₁⟩ -
    apply Settles.bind
    · unfold closeParen
      split
      · exact settles_ok _
      · exact settles_refused
    · intro ts₂ _
      exact settles_ok _
  · rename_i m ts' hm
    cases hm
    rw [List.length_cons] at hn
    apply (ih.atom ts' (by omega)).bind
    rintro ⟨inner, ts₁⟩ -
    apply Settles.bind
    · cases inner with
      | boolRequired => exact settles_ok _
      | _ => exact settles_refused
    · intro negated _
      exact settles_ok _
  · exact parseTerminal_settles _

lemma andRest_succ (ih : Enough n) (ts : List Tok) (hn : 3 * ts.length + 1 ≤ n + 1) :
    Settles (parseAndRest (n + 1) ts) := by
  unfold parseAndRest
  split
  · cases ‹n + 1 = 0›
  · rename_i m ts' hm
    cases hm
    rw [List.length_cons] at hn
    apply (ih.atom ts' (by omega)).bind
    rintro ⟨part, ts₁⟩ hpart
    obtain ⟨us, rfl, hderives⟩ := (sound n).atom _ _ _ hpart
    have hlt : ts₁.length < (us ++ ts₁).length := hderives.length_lt
    apply (ih.andRest ts₁ (by omega)).bind
    intro _ _
    exact settles_ok _
  · exact settles_ok _

lemma conj_succ (ih : Enough n) (ts : List Tok) (hn : 3 * ts.length + 2 ≤ n + 1) :
    Settles (parseAnd (n + 1) ts) := by
  rw [parseAnd]
  apply (ih.atom ts (by omega)).bind
  rintro ⟨first, ts₁⟩ hfirst
  obtain ⟨us, rfl, hderives⟩ := (sound n).atom _ _ _ hfirst
  have hlt : ts₁.length < (us ++ ts₁).length := hderives.length_lt
  apply (ih.andRest ts₁ (by omega)).bind
  intro _ _
  exact settles_ok _

lemma orRest_succ (ih : Enough n) (ts : List Tok) (hn : 3 * ts.length + 1 ≤ n + 1) :
    Settles (parseOrRest (n + 1) ts) := by
  unfold parseOrRest
  split
  · cases ‹n + 1 = 0›
  · rename_i m ts' hm
    cases hm
    rw [List.length_cons] at hn
    apply (ih.conj ts' (by omega)).bind
    rintro ⟨part, ts₁⟩ hpart
    obtain ⟨us, rfl, hderives⟩ := (sound n).conj _ _ _ hpart
    have hlt : ts₁.length < (us ++ ts₁).length := hderives.length_lt
    apply (ih.orRest ts₁ (by omega)).bind
    intro _ _
    exact settles_ok _
  · exact settles_ok _

lemma expr_succ (ih : Enough n) (ts : List Tok) (hn : 3 * ts.length + 3 ≤ n + 1) :
    Settles (parseOr (n + 1) ts) := by
  rw [parseOr]
  apply (ih.conj ts (by omega)).bind
  rintro ⟨first, ts₁⟩ hfirst
  obtain ⟨us, rfl, hderives⟩ := (sound n).conj _ _ _ hfirst
  have hlt : ts₁.length < (us ++ ts₁).length := hderives.length_lt
  apply (ih.orRest ts₁ (by omega)).bind
  intro _ _
  exact settles_ok _

end Enough

theorem enough (n : Nat) : Enough n := by
  induction n with
  | zero => constructor <;> intro ts hn <;> omega
  | succ n ih => exact ⟨ih.atom_succ, ih.andRest_succ, ih.conj_succ, ih.orRest_succ, ih.expr_succ⟩

theorem parseTokens_settles (ts : List Tok) : Settles (parseTokens (parserTurns ts) ts) := by
  rw [parseTokens]
  apply ((enough (parserTurns ts)).expr ts (by rw [parserTurns]; omega)).bind
  rintro ⟨result, rest⟩ -
  cases rest with
  | nil => exact settles_ok _
  | cons tok rest => exact settles_refused

end Temper.Spec
