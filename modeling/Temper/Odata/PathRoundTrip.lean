import Mathlib
import Temper.Odata.PathText

/-!
# Which paths are read back

Segments are cut with an eye to parentheses but not to quotes, and a dot anywhere in a further
segment makes it an operation. So a path is read back exactly when every parenthesised text closes
by itself, with no slash left open on the way, and no key of a navigation holds a dot.

For the other direction, a path is cut at slashes where the quotes of the text before are even in
number, or some segment is refused; such slashes are those of the path itself, and a path that is
cut at fewer of them is less deep than the one that was written.
-/

namespace Temper.Odata

open Spec ResourcePath

/-! ### Parentheses and slashes -/

/-- The depth after a text, if no parenthesis is closed and no slash stands at depth zero. -/
def scan (depth : Nat) : List Char → Option Nat
  | [] => some depth
  | ch :: rest =>
    if ch = '(' then scan (depth + 1) rest
    else if ch = ')' then if depth = 0 then none else scan (depth - 1) rest
    else if ch = '/' ∧ depth = 0 then none
    else scan depth rest

lemma scan_append (depth : Nat) (cs rest : List Char) :
    scan depth (cs ++ rest) = (scan depth cs).bind (scan · rest) := by
  induction cs generalizing depth with
  | nil => rfl
  | cons ch cs ih =>
    rw [List.cons_append, scan, scan]
    split_ifs <;> simp [ih]

/-- A text without parentheses and slashes. -/
def IsPlain (cs : List Char) : Prop := '(' ∉ cs ∧ ')' ∉ cs ∧ '/' ∉ cs ∧ '\'' ∉ cs

variable {cs : List Char}

lemma IsPlain.scan (h : IsPlain cs) (depth : Nat) : scan depth cs = some depth := by
  induction cs with
  | nil => rfl
  | cons ch cs ih =>
    simp only [IsPlain, List.mem_cons, not_or] at h
    rw [Odata.scan, if_neg (Ne.symm h.1.1), if_neg (Ne.symm h.2.1.1),
      if_neg (fun hslash => h.2.2.1.1 hslash.1.symm)]
    exact ih ⟨h.1.2, h.2.1.2, h.2.2.1.2, h.2.2.2.2⟩

/-- A parenthesised text that closes by itself. -/
def Closes (inside : List Char) : Prop := scan 1 inside = some 1

variable {inside : List Char} {name : List Char}

lemma scan_keyed (hname : IsPlain name) : scan 0 (keyed name inside) = some 0 ↔ Closes inside := by
  unfold keyed Closes
  rw [List.append_assoc, scan_append, hname.scan 0, Option.bind_some, List.cons_append, Odata.scan,
    if_pos rfl, scan_append]
  cases h : Odata.scan (0 + 1) inside with
  | none => simp
  | some depth =>
    cases depth with
    | zero => simp [Odata.scan]
    | succ depth => simp [Odata.scan]

lemma splitPathSegments_append {depth depth' : Nat} (h : scan depth cs = some depth')
    (current rest : List Char) :
    splitPathSegments depth current (cs ++ rest) =
      splitPathSegments depth' (current ++ cs) rest := by
  induction cs generalizing depth current with
  | nil =>
    cases h
    rw [List.nil_append, List.append_nil]
  | cons ch cs ih =>
    unfold scan at h
    rw [List.cons_append, splitPathSegments]
    split_ifs at h ⊢ with hopen hclose hdepth hslash
    · rw [ih h, List.append_assoc]
      rfl
    · rw [ih h, List.append_assoc]
      rfl
    · rw [ih h, List.append_assoc]
      rfl

variable {first : List Char} {rest : List (List Char)}

/-- Segments that close by themselves are cut apart. -/
lemma splitPathSegments_slashed
    (h : ∀ segment ∈ first :: rest, segment ≠ [] ∧ scan 0 segment = some 0) :
    splitPathSegments 0 [] (first ++ slashed rest) = .ok (first :: rest) := by
  induction rest generalizing first with
  | nil =>
    obtain ⟨hne, hscan⟩ := h first List.mem_cons_self
    rw [splitPathSegments_append hscan]
    simp [slashed, splitPathSegments, hne]
  | cons next rest ih =>
    obtain ⟨hne, hscan⟩ := h first List.mem_cons_self
    rw [splitPathSegments_append hscan]
    change splitPathSegments 0 _ ('/' :: (next ++ slashed rest)) = _
    rw [splitPathSegments, if_neg (by decide), if_neg (by decide), if_pos ⟨rfl, rfl⟩,
      ih fun segment hsegment => h segment (List.mem_cons_of_mem _ hsegment)]
    simp [Except.map, hne]

/-- What was cut: a first piece that closes by itself, then the rest. -/
lemma splitPathSegments_ok {depth : Nat} {current : List Char} {pieces : List (List Char)}
    (h : splitPathSegments depth current cs = .ok pieces) :
    (scan depth cs = some 0 ∧
      pieces = if (current ++ cs).isEmpty then [] else [current ++ cs]) ∨
    ∃ a b rest, cs = a ++ '/' :: b ∧ scan depth a = some 0 ∧
      splitPathSegments 0 [] b = .ok rest ∧
      pieces = if (current ++ a).isEmpty then rest else (current ++ a) :: rest := by
  induction cs generalizing depth current with
  | nil =>
    unfold splitPathSegments at h
    split_ifs at h with hdepth <;> simp_all [scan]
  | cons ch cs ih =>
    unfold splitPathSegments at h
    -- a character that stays in the segment under way
    have hstay : ∀ depth', scan depth (ch :: cs) = scan depth' cs →
        (∀ a, scan depth (ch :: a) = scan depth' a) →
        splitPathSegments depth' (current ++ [ch]) cs = .ok pieces →
        (scan depth (ch :: cs) = some 0 ∧
          pieces = if (current ++ ch :: cs).isEmpty then [] else [current ++ ch :: cs]) ∨
        ∃ a b rest, ch :: cs = a ++ '/' :: b ∧ scan depth a = some 0 ∧
          splitPathSegments 0 [] b = .ok rest ∧
          pieces = if (current ++ a).isEmpty then rest else (current ++ a) :: rest := by
      intro depth' hscan hscan' hsplit
      rcases ih hsplit with ⟨hall, hpieces⟩ | ⟨a, b, rest, hcs, ha, hb, hpieces⟩
      · exact .inl ⟨by rw [hscan, hall], by simpa using hpieces⟩
      · refine .inr ⟨ch :: a, b, rest, by rw [hcs]; rfl, by rw [hscan', ha], hb, ?_⟩
        simpa using hpieces
    by_cases hopen : ch = '('
    · rw [if_pos hopen] at h
      exact hstay _ (by simp [scan, hopen]) (by simp [scan, hopen]) h
    rw [if_neg hopen] at h
    by_cases hclose : ch = ')'
    · rw [if_pos hclose] at h
      split_ifs at h with hdepth
      exact hstay _ (by simp [scan, hclose, hdepth]) (by simp [scan, hclose, hdepth]) h
    rw [if_neg hclose] at h
    by_cases hslash : ch = '/' ∧ depth = 0
    · rw [if_pos hslash] at h
      obtain ⟨rest, hrest, hpieces⟩ := exists_of_map_ok h
      refine .inr ⟨[], cs, rest, by rw [hslash.1]; rfl, by rw [hslash.2]; rfl, hrest, ?_⟩
      rw [List.append_nil]
      exact hpieces.symm
    · rw [if_neg hslash] at h
      exact hstay _ (by simp [scan, hopen, hclose, hslash])
        (by simp [scan, hopen, hclose, hslash]) h

/-! ### Quotes and slashes -/

/-- Whether a text ends inside quotes, if none of its slashes is outside. -/
def scanQuotes (inQuotes : Bool) : List Char → Option Bool
  | [] => some inQuotes
  | ch :: rest =>
    if ch = '\'' then scanQuotes (!inQuotes) rest
    else if ch = '/' ∧ !inQuotes then none
    else scanQuotes inQuotes rest

lemma scanQuotes_append (inQuotes : Bool) (cs rest : List Char) :
    scanQuotes inQuotes (cs ++ rest) = (scanQuotes inQuotes cs).bind (scanQuotes · rest) := by
  induction cs generalizing inQuotes with
  | nil => rfl
  | cons ch cs ih =>
    rw [List.cons_append, scanQuotes, scanQuotes]
    split_ifs <;> simp [ih]

/-- The state is the parity of the quotes read. -/
lemma scanQuotes_eq_some {inQuotes inQuotes' : Bool} (h : scanQuotes inQuotes cs = some inQuotes') :
    Even (cs.count '\'' + inQuotes.toNat + inQuotes'.toNat) := by
  induction cs generalizing inQuotes with
  | nil =>
    cases h
    cases inQuotes' <;> decide
  | cons ch cs ih =>
    unfold scanQuotes at h
    split_ifs at h with hquote hslash
    · have heven := ih h
      rw [hquote, List.count_cons_self]
      cases inQuotes <;> cases inQuotes' <;> simp_all [Nat.even_add_one, add_assoc]
    · rw [List.count_cons_of_ne hquote]
      exact ih h

lemma even_of_scanQuotes (h : scanQuotes false cs = some false) : Even (cs.count '\'') := by
  simpa using scanQuotes_eq_some h

variable {a b : List Char}

/-- A slash inside quotes comes after an odd number of them. -/
lemma not_even_of_slash (h : scanQuotes false cs = some false) (hcs : cs = a ++ '/' :: b) :
    ¬ Even (a.count '\'') := by
  rw [hcs, scanQuotes_append] at h
  cases ha : scanQuotes false a with
  | none => simp [ha] at h
  | some inQuotes =>
    have hparity := scanQuotes_eq_some ha
    cases inQuotes with
    | true => simpa [Nat.even_add_one] using hparity
    | false => simp [ha, scanQuotes] at h

/-- A slash after an even number of quotes is one between segments. -/
lemma slashed_eq_append (hscan : ∀ segment ∈ first :: rest, scanQuotes false segment = some false)
    (h : first ++ slashed rest = a ++ '/' :: b) (heven : Even (a.count '\'')) :
    ∃ before next after, rest = before ++ next :: after ∧ a = first ++ slashed before ∧
      b = next ++ slashed after := by
  induction rest generalizing first a with
  | nil =>
    rw [slashed, List.flatMap_nil, List.append_nil] at h
    exact absurd heven (not_even_of_slash (hscan first List.mem_cons_self) h)
  | cons next rest ih =>
    have hslashed : slashed (next :: rest) = '/' :: (next ++ slashed rest) := rfl
    rw [hslashed, List.append_eq_append_iff] at h
    rcases h with ⟨a', ha, h⟩ | ⟨a', hfirst, h⟩
    · cases a' with
      | nil =>
        obtain ⟨-, rfl⟩ := List.cons.inj h
        exact ⟨[], next, rest, rfl, by simpa [slashed] using ha, rfl⟩
      | cons c a' =>
        obtain ⟨rfl, htail⟩ := List.cons.inj h
        have heven' : Even (a'.count '\'') := by
          rw [ha, List.count_append, List.count_cons_of_ne (by decide)] at heven
          exact (Nat.even_add.mp heven).mp
            (even_of_scanQuotes (hscan first List.mem_cons_self))
        obtain ⟨before, next', after, hrest, ha', hb⟩ :=
          ih (fun segment hsegment => hscan segment (List.mem_cons_of_mem _ hsegment)) htail heven'
        refine ⟨next :: before, next', after, by rw [hrest]; rfl, ?_, hb⟩
        rw [ha, ha']
        rfl
    · cases a' with
      | nil =>
        obtain ⟨-, hb⟩ := List.cons.inj h
        rw [List.append_nil] at hfirst
        exact ⟨[], next, rest, rfl, by simpa [slashed] using hfirst.symm, hb⟩
      | cons c a' =>
        obtain ⟨rfl, -⟩ := List.cons.inj h
        exact absurd heven (not_even_of_slash (hscan first List.mem_cons_self) hfirst)

/-! ### Pieces -/

/-- How the segments of a path look: a plain text, or a plain name and something in parentheses,
with every slash in quotes. -/
structure IsSegment (segment : List Char) : Prop where
  ne_nil : segment ≠ []
  quotes : scanQuotes false segment = some false
  last : ∃ d, segment.getLast? = some d ∧ isWhitespace d = false ∧ d ≠ '/'
  shape : IsPlain segment ∨ ∃ name inside, segment = keyed name inside ∧ IsPlain name

/-- What the segment parsers ask of the quotes. -/
def HasEvenQuotes (piece : List Char) : Prop :=
  ∀ before after, splitOnce '(' piece = some (before, after) → Even (after.count '\'')

/-- A piece that starts with a segment and ends at a slash has an even number of quotes. -/
lemma even_of_piece (hfirst : IsSegment first) (h : first ++ slashed rest = a ++ '/' :: b)
    (hscan : scan 0 a = some 0) (heven : HasEvenQuotes a) : Even (a.count '\'') := by
  rcases hfirst.shape with hplain | ⟨name, inside, rfl, hname⟩
  · -- the first slash ends the segment
    rcases List.append_eq_append_iff.mp h with ⟨a', rfl, htail⟩ | ⟨a', rfl, -⟩
    · cases a' with
      | nil => simp [List.count_eq_zero_of_not_mem hplain.2.2.2]
      | cons c a' =>
        cases rest with
        | nil => cases htail
        | cons next rest =>
          obtain ⟨rfl, -⟩ := List.cons.inj htail
          simp [scan_append, hplain.scan, scan] at hscan
    · rw [List.count_eq_zero_of_not_mem fun hmem =>
        hplain.2.2.2 (List.mem_append_left _ hmem)]
      exact Even.zero
  · unfold keyed at h
    rw [List.append_assoc, List.append_assoc, List.append_eq_append_iff] at h
    rcases h with ⟨a', rfl, h⟩ | ⟨a', rfl, h⟩
    · cases a' with
      | nil => cases h
      | cons c a' =>
        obtain ⟨rfl, -⟩ := List.cons.inj h
        rw [List.count_append, List.count_eq_zero_of_not_mem hname.2.2.2, zero_add,
          List.count_cons_of_ne (by decide)]
        exact heven name a' (splitOnce_append hname.1 a')
    · cases a' with
      | nil => cases h
      | cons c a' =>
        obtain ⟨rfl, -⟩ := List.cons.inj h
        exact absurd (List.mem_append_right _ List.mem_cons_self) hname.2.2.1

lemma IsSegment.append_ne_slash {tail : List Char} (hfirst : IsSegment first)
    (h : first ++ tail = a ++ '/' :: b) : a ≠ [] := by
  rintro rfl
  cases first with
  | nil => exact hfirst.ne_nil rfl
  | cons c first =>
    obtain ⟨rfl, -⟩ := List.cons.inj h
    have hquotes := hfirst.quotes
    simp [scanQuotes] at hquotes

/-- There are at most as many pieces as segments, and if there are as many, they are the
segments. -/
lemma pieces_of_segments {pieces : List (List Char)}
    (hsegments : ∀ segment ∈ first :: rest, IsSegment segment)
    (hsplit : splitPathSegments 0 [] (first ++ slashed rest) = .ok pieces)
    (heven : ∀ piece ∈ pieces, HasEvenQuotes piece) :
    pieces.length ≤ rest.length + 1 ∧
      (pieces.length = rest.length + 1 →
        pieces = first :: rest ∧ ∀ segment ∈ first :: rest, scan 0 segment = some 0) := by
  induction hlen : rest.length using Nat.strong_induction_on generalizing first rest pieces with
  | _ n ih =>
    subst hlen
    have hfirst := hsegments first List.mem_cons_self
    rcases splitPathSegments_ok hsplit with ⟨hscan, hpieces⟩ | ⟨a, b, more, htext, hscan, hb, hpieces⟩
    · -- one piece
      have hne : (first ++ slashed rest).isEmpty = false := by
        simp [hfirst.ne_nil]
      rw [List.nil_append, hne, if_neg (by simp)] at hpieces
      subst hpieces
      refine ⟨by simp, fun hlength => ?_⟩
      obtain rfl : rest = [] := List.eq_nil_of_length_eq_zero (by simpa using hlength.symm)
      rw [slashed, List.flatMap_nil, List.append_nil] at hscan ⊢
      refine ⟨rfl, fun segment hsegment => ?_⟩
      rw [List.mem_singleton] at hsegment
      rw [hsegment, hscan]
    · have hane := hfirst.append_ne_slash htext
      rw [List.nil_append, if_neg (by simp [hane])] at hpieces
      subst hpieces
      have haeven := even_of_piece hfirst htext hscan (heven a List.mem_cons_self)
      obtain ⟨before, next, after, hrest, ha, rfl⟩ :=
        slashed_eq_append (fun segment hsegment => (hsegments segment hsegment).quotes) htext haeven
      have hlength : rest.length = before.length + after.length + 1 := by
        rw [hrest]
        simp [add_assoc]
      obtain ⟨hle, heq⟩ := ih after.length (by omega)
        (fun segment hsegment => hsegments segment (List.mem_cons_of_mem _ (by
          rw [hrest]
          exact List.mem_append_right _ hsegment)))
        hb (fun piece hpiece => heven piece (List.mem_cons_of_mem _ hpiece)) rfl
      refine ⟨by simp only [List.length_cons]; omega, fun hpieces => ?_⟩
      rw [List.length_cons] at hpieces
      obtain rfl : before = [] := List.eq_nil_of_length_eq_zero (by omega)
      obtain ⟨rfl, hscans⟩ := heq (by omega)
      rw [slashed, List.flatMap_nil, List.append_nil] at ha
      subst ha
      rw [List.nil_append] at hrest
      subst hrest
      refine ⟨rfl, fun segment hsegment => ?_⟩
      rcases List.mem_cons.mp hsegment with rfl | hsegment
      · exact hscan
      · exact hscans segment hsegment

/-! ### What the segment parsers accept -/

variable {segment : List Char} {before after : List Char} {message : String}

/-- What an accepted segment has in parentheses. -/
lemma closeParenthesis_ok (hsplit : splitOnce '(' segment = some (before, after))
    (h : closeParenthesis segment after message = .ok inside) : after = inside ++ [')'] := by
  unfold closeParenthesis at h
  split_ifs at h with hlast
  cases h
  obtain ⟨hsegment, -⟩ := splitOnce_eq_some hsplit
  rw [hsegment, List.getLast?_append, List.getLast?_cons] at hlast
  cases hafter : after.getLast? with
  | none => simp [hafter] at hlast
  | some d =>
    obtain ⟨init, rfl⟩ := List.getLast?_eq_some_iff.mp hafter
    have hd : d = ')' := by simpa using hlast
    rw [hd, List.dropLast_concat]

lemma count_of_closeParenthesis (hsplit : splitOnce '(' segment = some (before, after))
    (h : closeParenthesis segment after message = .ok inside) :
    after.count '\'' = inside.count '\'' := by
  rw [closeParenthesis_ok hsplit h, List.count_append]
  simp

namespace ODataPath

/-- How many segments follow the entity set. -/
def depth : ODataPath → Nat
  | navigationProperty parent _ | navigationEntity parent _ _ | boundAction parent _
  | boundFunction parent _ _ | value parent => parent.depth + 1
  | _ => 0

def parent? : ODataPath → Option ODataPath
  | navigationProperty parent _ | navigationEntity parent _ _ | boundAction parent _
  | boundFunction parent _ _ | value parent => some parent
  | _ => none

lemma depth_of_parent? {path parent : ODataPath} (h : path.parent? = some parent) :
    path.depth = parent.depth + 1 := by
  cases path <;> simp_all [parent?, depth]

end ODataPath

variable {path : ODataPath}

lemma hasEvenQuotes_of_split (hsplit : splitOnce '(' segment = some (before, after))
    (hinside : closeParenthesis segment after message = .ok inside)
    (heven : Even (inside.count '\'')) : HasEvenQuotes segment := by
  intro before' after' hsplit'
  rw [hsplit] at hsplit'
  cases hsplit'
  rw [count_of_closeParenthesis hsplit hinside]
  exact heven

lemma hasEvenQuotes_of_unsplit (hsplit : splitOnce '(' segment = none) : HasEvenQuotes segment := by
  intro before after hsplit'
  rw [hsplit] at hsplit'
  cases hsplit'

lemma parseEntitySegment_ok (h : parseEntitySegment segment = .ok path) :
    HasEvenQuotes segment ∧ path.depth = 0 := by
  unfold parseEntitySegment at h
  split at h
  · rename_i name after hsplit
    obtain ⟨_, -, h⟩ := exists_of_bind_ok h
    obtain ⟨inside, hinside, h⟩ := exists_of_bind_ok h
    obtain ⟨key, hkey, h⟩ := exists_of_bind_ok h
    cases h
    exact ⟨hasEvenQuotes_of_split hsplit hinside (even_of_parseKeyValue hkey), rfl⟩
  · rename_i hsplit
    obtain ⟨_, -, h⟩ := exists_of_bind_ok h
    cases h
    exact ⟨hasEvenQuotes_of_unsplit hsplit, rfl⟩

lemma parseContinuationSegment_ok {parent : ODataPath}
    (h : parseContinuationSegment segment parent = .ok path) :
    HasEvenQuotes segment ∧ path.parent? = some parent := by
  unfold parseContinuationSegment at h
  split_ifs at h with hvalue hdot
  · cases h
    exact ⟨hasEvenQuotes_of_unsplit (by rw [hvalue]; rfl), rfl⟩
  · split at h
    · rename_i name after hsplit
      obtain ⟨inside, hinside, h⟩ := exists_of_bind_ok h
      obtain ⟨params, hparams, h⟩ := exists_of_bind_ok h
      cases h
      exact ⟨hasEvenQuotes_of_split hsplit hinside (even_of_parseFunctionParams hparams), rfl⟩
    · rename_i hsplit
      cases h
      exact ⟨hasEvenQuotes_of_unsplit hsplit, rfl⟩
  · split at h
    · rename_i name after hsplit
      obtain ⟨_, -, h⟩ := exists_of_bind_ok h
      obtain ⟨inside, hinside, h⟩ := exists_of_bind_ok h
      obtain ⟨key, hkey, h⟩ := exists_of_bind_ok h
      cases h
      exact ⟨hasEvenQuotes_of_split hsplit hinside (even_of_parseKeyValue hkey), rfl⟩
    · rename_i hsplit
      obtain ⟨_, -, h⟩ := exists_of_bind_ok h
      cases h
      exact ⟨hasEvenQuotes_of_unsplit hsplit, rfl⟩

/-- Fold further segments onto a path. -/
abbrev parseRest (rest : List (List Char)) (base : ODataPath) : Except ODataError ODataPath :=
  rest.foldlM (fun current segment => parseContinuationSegment segment current) base

lemma parseRest_ok {base : ODataPath} (h : parseRest rest base = .ok path) :
    (∀ segment ∈ rest, HasEvenQuotes segment) ∧ path.depth = base.depth + rest.length := by
  induction rest generalizing base with
  | nil =>
    cases h
    refine ⟨fun segment hsegment => ?_, rfl⟩
    cases hsegment
  | cons segment rest ih =>
    unfold parseRest at h
    rw [List.foldlM_cons] at h
    obtain ⟨next, hnext, h⟩ := exists_of_bind_ok h
    obtain ⟨heven, hparent⟩ := parseContinuationSegment_ok hnext
    obtain ⟨hrest, hdepth⟩ := ih h
    refine ⟨fun segment' hsegment' => ?_, ?_⟩
    · rcases List.mem_cons.mp hsegment' with rfl | hsegment'
      · exact heven
      · exact hrest segment' hsegment'
    · rw [hdepth, ODataPath.depth_of_parent? hparent, List.length_cons]
      omega

/-! ### The segments of a path -/

lemma IsPlain.append (ha : IsPlain a) (hb : IsPlain b) : IsPlain (a ++ b) := by
  simp only [IsPlain, List.mem_append, not_or] at *
  tauto

lemma IsPlain.quotes (h : IsPlain cs) : scanQuotes false cs = some false := by
  induction cs with
  | nil => rfl
  | cons ch cs ih =>
    simp only [IsPlain, List.mem_cons, not_or] at h
    rw [scanQuotes, if_neg (Ne.symm h.2.2.2.1), if_neg (fun hslash => h.2.2.1.1 hslash.1.symm)]
    exact ih ⟨h.1.2, h.2.1.2, h.2.2.1.2, h.2.2.2.2⟩

lemma Identifier.isPlain (i : Identifier) : IsPlain i.text :=
  ⟨i.not_mem (by decide), i.not_mem (by decide), i.not_mem (by decide), i.not_mem (by decide)⟩

lemma isPlain_flatMap_dot (ids : List Identifier) :
    IsPlain (ids.flatMap (·.text ++ ['.'])) := by
  induction ids with
  | nil => simp [IsPlain]
  | cons i ids ih => exact (i.isPlain.append (by simp [IsPlain])).append ih

lemma QualifiedName.isPlain (q : QualifiedName) : IsPlain q.text :=
  (isPlain_flatMap_dot _).append q.name.isPlain

lemma QualifiedName.dot_mem (q : QualifiedName) : '.' ∈ q.text := by
  simp [QualifiedName.text]

lemma scanQuotes_doubleQuotes (cs : List Char) :
    scanQuotes true (doubleQuotes cs) = some true := by
  induction cs with
  | nil => rfl
  | cons c cs ih =>
    unfold doubleQuotes
    split_ifs with hc
    · simpa [scanQuotes] using ih
    · simpa [scanQuotes, hc] using ih

lemma scanQuotes_quoted (value : String) : scanQuotes false (quoted value) = some false := by
  unfold quoted
  rw [scanQuotes, if_pos rfl, Bool.not_false, scanQuotes_append, scanQuotes_doubleQuotes]
  rfl

lemma scanQuotes_argumentText (argument : Identifier × String) :
    scanQuotes false (argumentText argument) = some false := by
  unfold argumentText
  rw [scanQuotes_append, argument.1.isPlain.quotes, Option.bind_some, scanQuotes,
    if_neg (by decide), if_neg (by decide), scanQuotes_quoted]

lemma scanQuotes_argumentsText (arguments : List (Identifier × String)) :
    scanQuotes false (argumentsText arguments) = some false := by
  induction arguments with
  | nil => rfl
  | cons argument rest ih =>
    cases rest with
    | nil => exact scanQuotes_argumentText argument
    | cons next rest =>
      change scanQuotes false (argumentText argument ++ ',' :: argumentsText (next :: rest)) = _
      rw [scanQuotes_append, scanQuotes_argumentText, Option.bind_some, scanQuotes,
        if_neg (by decide), if_neg (by decide), ih]

lemma PathKey.quotes (key : PathKey) : scanQuotes false key.text = some false := by
  cases key with
  | single value => exact scanQuotes_quoted value
  | composite arguments nonempty => exact scanQuotes_argumentsText arguments

lemma isSegment_keyed (hname : IsPlain name) (hinside : scanQuotes false inside = some false) :
    IsSegment (keyed name inside) where
  ne_nil := by simp [keyed]
  quotes := by
    unfold keyed
    rw [List.append_assoc, scanQuotes_append, hname.quotes, Option.bind_some, List.cons_append,
      scanQuotes, if_neg (by decide), if_neg (by decide), scanQuotes_append, hinside]
    rfl
  last := ⟨')', List.getLast?_concat, by decide, by decide⟩
  shape := .inr ⟨name, inside, rfl, hname⟩

/-- What ends in an identifier ends in one of its characters. -/
lemma Identifier.getLast?_append (i : Identifier) (cs : List Char) :
    ∃ d, (cs ++ i.text).getLast? = some d ∧ isWhitespace d = false ∧ d ≠ '/' := by
  obtain ⟨init, d, hd, hid⟩ := i.exists_concat
  refine ⟨d, by rw [hd]; simp, not_isWhitespace_of_bounds (isIdentifierChar_bounds hid), ?_⟩
  rintro rfl
  exact absurd hid (by decide)

lemma Navigation.isSegment (n : Navigation) : IsSegment n.text := by
  cases n with
  | property name =>
    exact ⟨name.ne_nil, name.isPlain.quotes, name.getLast?_append [], .inl name.isPlain⟩
  | entity name key => exact isSegment_keyed name.isPlain key.quotes

lemma Operation.isSegment (o : Operation) : IsSegment o.text := by
  cases o with
  | action name =>
    refine ⟨?_, name.isPlain.quotes, name.name.getLast?_append _, .inl name.isPlain⟩
    exact List.ne_nil_of_mem name.dot_mem
  | function name arguments distinct =>
    exact isSegment_keyed name.isPlain (scanQuotes_argumentsText arguments)
  | value => exact ⟨by decide, by decide, ⟨'e', by decide⟩, .inl (by unfold IsPlain; decide)⟩

lemma ResourcePath.isSegment (p : ResourcePath) :
    ∀ segment ∈ p.firstSegment :: p.restSegments, IsSegment segment := by
  intro segment hsegment
  rcases List.mem_cons.mp hsegment with rfl | hsegment
  · exact isSegment_keyed p.set.isPlain p.key.quotes
  · rcases List.mem_append.mp hsegment with hnavigation | hoperation
    · obtain ⟨n, -, rfl⟩ := List.mem_map.mp hnavigation
      exact n.isSegment
    · obtain ⟨o, -, rfl⟩ : ∃ o, p.operation = some o ∧ o.text = segment := by
        simpa using hoperation
      exact o.isSegment

/-! ### Normalisation -/

lemma getLast?_slashed (h : ∀ segment ∈ first :: rest, IsSegment segment) :
    ∃ d, (first ++ slashed rest).getLast? = some d ∧ isWhitespace d = false ∧ d ≠ '/' := by
  induction rest generalizing first with
  | nil =>
    rw [slashed, List.flatMap_nil, List.append_nil]
    exact (h first List.mem_cons_self).last
  | cons next rest ih =>
    obtain ⟨d, hd, hblank, hslash⟩ :=
      ih fun segment hsegment => h segment (List.mem_cons_of_mem _ hsegment)
    refine ⟨d, ?_, hblank, hslash⟩
    change (first ++ '/' :: (next ++ slashed rest)).getLast? = some d
    rw [List.getLast?_append, List.getLast?_cons, hd]
    rfl

lemma normalizePath_slashed (h : ∀ segment ∈ first :: rest, IsSegment segment) :
    normalizePath (slashed (first :: rest)) = first ++ slashed rest := by
  obtain ⟨d, hd, hblank, hslash⟩ := getLast?_slashed h
  have hlast : ('/' :: (first ++ slashed rest)).getLast? = some d := by
    rw [List.getLast?_cons, hd]
    rfl
  change normalizePath ('/' :: (first ++ slashed rest)) = _
  unfold normalizePath
  dsimp only
  rw [trimText_eq_self (by decide) hblank hlast, hlast, if_neg (by simp [hslash])]
  rfl

/-- The text of a path is cut into segments and these are parsed. -/
lemma parsePath_text (p : ResourcePath) :
    parsePath p.text =
      (splitPathSegments 0 [] (p.firstSegment ++ slashed p.restSegments) >>= parseSegments) := by
  have hopen : '(' ∈ p.firstSegment ++ slashed p.restSegments := by
    simp [firstSegment, keyed]
  have hne : (p.firstSegment ++ slashed p.restSegments).isEmpty = false := by
    rw [List.isEmpty_eq_false_iff]
    exact List.ne_nil_of_mem hopen
  have hmetadata : p.firstSegment ++ slashed p.restSegments ≠ "$metadata".toList := by
    intro heq
    rw [heq] at hopen
    exact absurd hopen (by decide)
  unfold parsePath ResourcePath.text
  dsimp only
  rw [String.toList_ofList, normalizePath_slashed p.isSegment, hne, if_neg (by simp),
    if_neg hmetadata]

/-! ### Reading one segment -/

lemma splitOnce_keyed (hname : IsPlain name) :
    splitOnce '(' (keyed name inside) = some (name, inside ++ [')']) := by
  unfold keyed
  rw [List.append_assoc]
  exact splitOnce_append hname.1 _

lemma closeParenthesis_keyed (name inside : List Char) (message : String) :
    closeParenthesis (keyed name inside) (inside ++ [')']) message = .ok inside := by
  unfold closeParenthesis
  rw [if_pos (by exact List.getLast?_concat), List.dropLast_concat]

lemma parseEntitySegment_keyed (name : Identifier) (key : PathKey) :
    parseEntitySegment (keyed name.text key.text) =
      .ok (.entity (String.ofList name.text) key.toKeyValue) := by
  unfold parseEntitySegment
  rw [splitOnce_keyed name.isPlain]
  simp only [bind, Except.bind, name.valid, closeParenthesis_keyed, parseKeyValue_text]
  rfl

lemma keyed_ne_value (name inside : List Char) : keyed name inside ≠ "$value".toList := by
  intro heq
  have hopen : '(' ∈ keyed name inside := by simp [keyed]
  rw [heq] at hopen
  exact absurd hopen (by decide)

lemma dot_mem_keyed {name : Identifier} : '.' ∈ keyed name.text inside ↔ '.' ∈ inside := by
  have hname : '.' ∉ name.text := name.not_mem (by decide)
  simp [keyed, hname]

/-- A keyed navigation is read back when its key holds no dot. -/
lemma parseContinuationSegment_keyed (parent : ODataPath) {name : Identifier} {key : PathKey}
    (hdot : '.' ∉ key.text) :
    parseContinuationSegment (keyed name.text key.text) parent =
      .ok (.navigationEntity parent (String.ofList name.text) key.toKeyValue) := by
  unfold parseContinuationSegment
  rw [if_neg (keyed_ne_value _ _), if_neg (mt dot_mem_keyed.mp hdot),
    splitOnce_keyed name.isPlain]
  simp only [bind, Except.bind, name.valid, closeParenthesis_keyed, parseKeyValue_text]
  rfl

/-- A key with a dot makes the navigation a function. -/
lemma not_dot_of_parseContinuationSegment {parent parent' : ODataPath} {name : Identifier}
    {property : String} {key : KeyValue}
    (h : parseContinuationSegment (keyed name.text inside) parent =
      .ok (.navigationEntity parent' property key)) : '.' ∉ inside := by
  intro hdot
  unfold parseContinuationSegment at h
  rw [if_neg (keyed_ne_value _ _), if_pos (dot_mem_keyed.mpr hdot),
    splitOnce_keyed name.isPlain] at h
  obtain ⟨_, -, h⟩ := exists_of_bind_ok h
  obtain ⟨_, -, h⟩ := exists_of_bind_ok h
  cases h

lemma parseContinuationSegment_property (parent : ODataPath) (name : Identifier) :
    parseContinuationSegment name.text parent =
      .ok (.navigationProperty parent (String.ofList name.text)) := by
  have hvalue : name.text ≠ "$value".toList := by
    intro heq
    have hdollar : '$' ∉ name.text := name.not_mem (by decide)
    rw [heq] at hdollar
    exact absurd hdollar (by decide)
  unfold parseContinuationSegment
  rw [if_neg hvalue, if_neg (name.not_mem (by decide)), splitOnce_eq_none name.isPlain.1]
  simp only [bind, Except.bind, name.valid]
  rfl

lemma parseContinuationSegment_action (parent : ODataPath) (name : QualifiedName) :
    parseContinuationSegment name.text parent =
      .ok (.boundAction parent (String.ofList name.name.text)) := by
  have hvalue : name.text ≠ "$value".toList := by
    intro heq
    have hdot := name.dot_mem
    rw [heq] at hdot
    exact absurd hdot (by decide)
  -- the qualifiers end in the last dot
  obtain ⟨before, hbefore⟩ : ∃ before, name.text = before ++ '.' :: name.name.text := by
    rcases List.eq_nil_or_concat (name.qualifier :: name.inner) with hnil | ⟨init, i, hconcat⟩
    · cases hnil
    · refine ⟨init.flatMap (·.text ++ ['.']) ++ i.text, ?_⟩
      rw [QualifiedName.text, hconcat]
      simp
  unfold parseContinuationSegment
  rw [if_neg hvalue, if_pos name.dot_mem, splitOnce_eq_none name.isPlain.1]
  dsimp only
  rw [hbefore, rsplitOnce_append (name.name.not_mem (by decide))]

lemma parseContinuationSegment_function (parent : ODataPath) (name : QualifiedName)
    (arguments : List (Identifier × String)) (distinct : (arguments.map (·.1.text)).Nodup) :
    parseContinuationSegment (keyed name.text (argumentsText arguments)) parent =
      .ok (.boundFunction parent (String.ofList name.text) (argumentPairs arguments)) := by
  have hdot : '.' ∈ keyed name.text (argumentsText arguments) := by
    unfold keyed
    rw [List.append_assoc]
    exact List.mem_append_left _ name.dot_mem
  unfold parseContinuationSegment
  rw [if_neg (keyed_ne_value _ _), if_pos hdot, splitOnce_keyed name.isPlain]
  simp only [bind, Except.bind, closeParenthesis_keyed, parseFunctionParams_text _ distinct]
  rfl

/-! ### Reading a path back -/

/-- What a navigation's key must look like. -/
def Navigation.Unambiguous : Navigation → Prop
  | property _ => True
  | entity _ key => Closes key.text ∧ '.' ∉ key.text

def Operation.Unambiguous : Operation → Prop
  | function _ arguments _ => Closes (argumentsText arguments)
  | action _ | value => True

/-- Parenthesised texts close by themselves and the keys of navigations hold no dot. -/
structure ResourcePath.Unambiguous (p : ResourcePath) : Prop where
  key : Closes p.key.text
  navigations : ∀ n ∈ p.navigations, n.Unambiguous
  operation : ∀ o ∈ p.operation, o.Unambiguous

lemma Navigation.parse {n : Navigation} (h : n.Unambiguous) (parent : ODataPath) :
    parseContinuationSegment n.text parent = .ok (n.onto parent) := by
  cases n with
  | property name => exact parseContinuationSegment_property parent name
  | entity name key => exact parseContinuationSegment_keyed parent h.2

lemma Operation.parse (o : Operation) (parent : ODataPath) :
    parseContinuationSegment o.text parent = .ok (o.onto parent) := by
  cases o with
  | action name => exact parseContinuationSegment_action parent name
  | function name arguments distinct =>
    exact parseContinuationSegment_function parent name arguments distinct
  | value => rfl

lemma Navigation.scan {n : Navigation} (h : n.Unambiguous) : scan 0 n.text = some 0 := by
  cases n with
  | property name => exact name.isPlain.scan 0
  | entity name key => exact (scan_keyed name.isPlain).mpr h.1

lemma Operation.scan {o : Operation} (h : o.Unambiguous) : scan 0 o.text = some 0 := by
  cases o with
  | action name => exact name.isPlain.scan 0
  | function name arguments distinct => exact (scan_keyed name.isPlain).mpr h
  | value => decide

variable {navigations : List Navigation}

lemma parseRest_navigations (h : ∀ n ∈ navigations, n.Unambiguous) (base : ODataPath) :
    parseRest (navigations.map (·.text)) base = .ok (navigations.foldl Navigation.onto base) := by
  induction navigations generalizing base with
  | nil => rfl
  | cons n navigations ih =>
    unfold parseRest
    rw [List.map_cons, List.foldlM_cons, n.parse (h n List.mem_cons_self)]
    exact ih (fun n' hn' => h n' (List.mem_cons_of_mem _ hn')) (n.onto base)

/-- One more segment on top of what was read. -/
lemma parseRest_concat (rest : List (List Char)) (segment : List Char) (base : ODataPath) :
    parseRest (rest ++ [segment]) base =
      (parseRest rest base >>= parseContinuationSegment segment) := by
  unfold parseRest
  rw [List.foldlM_append]
  congr 1
  funext current
  simp

variable {p : ResourcePath}

lemma parsePath_of_unambiguous (h : p.Unambiguous) : parsePath p.text = .ok p.toODataPath := by
  have hsegments : ∀ segment ∈ p.firstSegment :: p.restSegments,
      segment ≠ [] ∧ scan 0 segment = some 0 := by
    intro segment hsegment
    refine ⟨(p.isSegment segment hsegment).ne_nil, ?_⟩
    rcases List.mem_cons.mp hsegment with rfl | hsegment
    · exact (scan_keyed p.set.isPlain).mpr h.key
    · rcases List.mem_append.mp hsegment with hnavigation | hoperation
      · obtain ⟨n, hn, rfl⟩ := List.mem_map.mp hnavigation
        exact n.scan (h.navigations n hn)
      · obtain ⟨o, ho, rfl⟩ : ∃ o, p.operation = some o ∧ o.text = segment := by
          simpa using hoperation
        exact o.scan (h.operation o ho)
  rw [parsePath_text, splitPathSegments_slashed hsegments]
  change (parseEntitySegment p.firstSegment >>= parseRest p.restSegments) = _
  rw [firstSegment, parseEntitySegment_keyed]
  change parseRest p.restSegments _ = _
  unfold restSegments toODataPath
  cases p.operation with
  | none =>
    rw [Option.map_none, Option.toList_none, List.append_nil]
    exact parseRest_navigations h.navigations _
  | some o =>
    rw [Option.map_some, Option.toList_some, parseRest_concat,
      parseRest_navigations h.navigations]
    exact o.parse _

/-! ### What was read back is unambiguous -/

lemma Navigation.parent?_onto (n : Navigation) (parent : ODataPath) :
    (n.onto parent).parent? = some parent := by
  cases n <;> rfl

lemma Operation.parent?_onto (o : Operation) (parent : ODataPath) :
    (o.onto parent).parent? = some parent := by
  cases o <;> rfl

lemma depth_foldl_onto (navigations : List Navigation) (base : ODataPath) :
    (navigations.foldl Navigation.onto base).depth = base.depth + navigations.length := by
  induction navigations generalizing base with
  | nil => rfl
  | cons n navigations ih =>
    rw [List.foldl_cons, ih, ODataPath.depth_of_parent? (n.parent?_onto base), List.length_cons]
    omega

lemma ResourcePath.depth_toODataPath (p : ResourcePath) :
    p.toODataPath.depth = p.restSegments.length := by
  unfold toODataPath restSegments
  cases p.operation with
  | none => simp [depth_foldl_onto, ODataPath.depth]
  | some o =>
    simp [ODataPath.depth_of_parent? (o.parent?_onto _), depth_foldl_onto, ODataPath.depth]

lemma ResourcePath.toODataPath_ne_serviceDocument (p : ResourcePath) :
    p.toODataPath ≠ .serviceDocument := by
  intro heq
  have hdepth := p.depth_toODataPath
  rw [heq] at hdepth
  have hrest : p.navigations = [] ∧ p.operation = none := by
    have hnil : p.restSegments = [] := List.eq_nil_of_length_eq_zero hdepth.symm
    simpa [restSegments] using hnil
  unfold toODataPath at heq
  rw [hrest.1, hrest.2] at heq
  cases heq

/-- What was read below the last segment is its parent. -/
lemma parseRest_concat_ok {base parent : ODataPath}
    (h : parseRest (rest ++ [segment]) base = .ok path) (hparent : path.parent? = some parent) :
    parseRest rest base = .ok parent ∧ parseContinuationSegment segment parent = .ok path := by
  rw [parseRest_concat] at h
  obtain ⟨middle, hmiddle, hsegment⟩ := exists_of_bind_ok h
  have hparent' := (parseContinuationSegment_ok hsegment).2
  rw [hparent] at hparent'
  obtain rfl := Option.some.inj hparent'
  exact ⟨hmiddle, hsegment⟩

/-- Navigations that close by themselves and are read back are unambiguous. -/
lemma unambiguous_of_parseRest (base : ODataPath)
    (hscan : ∀ n ∈ navigations, scan 0 n.text = some 0)
    (h : parseRest (navigations.map (·.text)) base =
      .ok (navigations.foldl Navigation.onto base)) : ∀ n ∈ navigations, n.Unambiguous := by
  induction navigations using List.reverseRecOn with
  | nil =>
    intro n hn
    cases hn
  | append_singleton navigations n ih =>
    rw [List.map_append, List.map_singleton, List.foldl_append] at h
    obtain ⟨hbelow, hlast⟩ := parseRest_concat_ok h (n.parent?_onto _)
    intro n' hn'
    rcases List.mem_append.mp hn' with hn' | hn'
    · exact ih (fun m hm => hscan m (List.mem_append_left _ hm)) hbelow n' hn'
    · rw [List.mem_singleton] at hn'
      subst hn'
      have hscan' := hscan n' (List.mem_append_right _ (List.mem_singleton_self _))
      cases n' with
      | property name => trivial
      | entity name key =>
        exact ⟨(scan_keyed name.isPlain).mp hscan', not_dot_of_parseContinuationSegment hlast⟩

lemma Operation.unambiguous_of_scan {o : Operation} (h : Odata.scan 0 o.text = some 0) :
    o.Unambiguous := by
  cases o with
  | action name => trivial
  | function name arguments distinct => exact (scan_keyed name.isPlain).mp h
  | value => trivial

/-- A path that is read back was cut into its segments. -/
lemma segments_of_parsePath (h : parsePath p.text = .ok p.toODataPath) :
    (∀ segment ∈ p.firstSegment :: p.restSegments, scan 0 segment = some 0) ∧
      parseRest p.restSegments (.entity (String.ofList p.set.text) p.key.toKeyValue) =
        .ok p.toODataPath := by
  rw [parsePath_text] at h
  obtain ⟨pieces, hpieces, h⟩ := exists_of_bind_ok h
  cases pieces with
  | nil => exact absurd (Except.ok.inj h).symm p.toODataPath_ne_serviceDocument
  | cons first rest =>
    obtain ⟨base, hbase, hrest⟩ := exists_of_bind_ok (f := parseRest rest) h
    obtain ⟨hfirst, hdepth⟩ := parseEntitySegment_ok hbase
    obtain ⟨heven, hdepth'⟩ := parseRest_ok hrest
    have hlength : (first :: rest).length = p.restSegments.length + 1 := by
      rw [hdepth, p.depth_toODataPath] at hdepth'
      rw [List.length_cons]
      omega
    obtain ⟨heq, hscan⟩ := (pieces_of_segments p.isSegment hpieces (by
      intro piece hpiece
      rcases List.mem_cons.mp hpiece with rfl | hpiece
      · exact hfirst
      · exact heven piece hpiece)).2 hlength
    obtain ⟨rfl, rfl⟩ := List.cons.inj heq
    rw [firstSegment, parseEntitySegment_keyed] at hbase
    obtain rfl := Except.ok.inj hbase
    exact ⟨hscan, hrest⟩

lemma unambiguous_of_parsePath (h : parsePath p.text = .ok p.toODataPath) : p.Unambiguous := by
  obtain ⟨hscan, hrest⟩ := segments_of_parsePath h
  have hnavigations : ∀ n ∈ p.navigations, scan 0 n.text = some 0 := by
    intro n hn
    refine hscan n.text (List.mem_cons_of_mem _ (List.mem_append_left _ ?_))
    exact List.mem_map_of_mem hn
  refine ⟨?_, unambiguous_of_parseRest
    (.entity (String.ofList p.set.text) p.key.toKeyValue) hnavigations ?_, ?_⟩
  · exact (scan_keyed p.set.isPlain).mp (hscan _ List.mem_cons_self)
  · unfold restSegments toODataPath at hrest
    cases hoperation : p.operation with
    | none => simpa [hoperation] using hrest
    | some o =>
      rw [hoperation, Option.map_some, Option.toList_some] at hrest
      exact (parseRest_concat_ok hrest (o.parent?_onto _)).1
  · intro o ho
    refine Operation.unambiguous_of_scan (hscan o.text (List.mem_cons_of_mem _ ?_))
    rw [Option.mem_def] at ho
    simp [restSegments, ho]

/-- A path is read back exactly when it is unambiguous. -/
theorem parsePath_text_iff (p : ResourcePath) :
    parsePath p.text = .ok p.toODataPath ↔ p.Unambiguous :=
  ⟨unambiguous_of_parsePath, parsePath_of_unambiguous⟩

/-- An item under an order, whose key is a version. -/
def versionedItem : ResourcePath where
  set := ⟨"Orders".toList, by decide⟩
  key := .single "1"
  navigations := [.entity ⟨"Items".toList, by decide⟩ (.single "v1.2")]
  operation := none

theorem versionedItem_not_read_back :
    versionedItem.text = "/Orders('1')/Items('v1.2')" ∧
      versionedItem.toODataPath =
        .navigationEntity (.entity "Orders" (.single "1")) "Items" (.single "v1.2") ∧
      parsePath versionedItem.text =
        .error (.invalidPath "bound function argument ''v1.2'' is missing '='") := by
  decide +kernel

end Temper.Odata
