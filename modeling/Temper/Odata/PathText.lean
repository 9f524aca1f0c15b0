import Mathlib
import Temper.Odata.Path

/-!
# The text of a resource path

Resource paths as a client writes them: an entity set with a key, navigations, and perhaps an
operation at the end, where key values are quoted and their quotes doubled. What the parser's
passes make of the quoted parts is proved here, pass by pass.
-/

namespace Temper.Odata

open Spec

/-! ### Syntax -/

/-- A name the parser accepts. -/
structure Identifier where
  text : List Char
  valid : validateIdentifier text = .ok ()

def doubleQuotes : List Char → List Char
  | [] => []
  | c :: cs => if c = '\'' then '\'' :: '\'' :: doubleQuotes cs else c :: doubleQuotes cs

/-- A literal in single quotes, with the quotes inside it doubled. -/
def quoted (value : String) : List Char := '\'' :: (doubleQuotes value.toList ++ ['\''])

/-- One `name='value'`. -/
def argumentText (argument : Identifier × String) : List Char :=
  argument.1.text ++ '=' :: quoted argument.2

/-- Arguments with commas between them. -/
def argumentsText : List (Identifier × String) → List Char
  | [] => []
  | [argument] => argumentText argument
  | argument :: rest => argumentText argument ++ ',' :: argumentsText rest

def argumentPairs (arguments : List (Identifier × String)) : List (String × String) :=
  arguments.map fun argument => (String.ofList argument.1.text, argument.2)

inductive PathKey
  | single (value : String)
  | composite (arguments : List (Identifier × String)) (nonempty : arguments ≠ [])

namespace PathKey

def text : PathKey → List Char
  | single value => quoted value
  | composite arguments _ => argumentsText arguments

def toKeyValue : PathKey → KeyValue
  | single value => .single value
  | composite arguments _ => .composite (argumentPairs arguments)

end PathKey

/-- A name with at least one qualifier. -/
structure QualifiedName where
  qualifier : Identifier
  inner : List Identifier
  name : Identifier

def QualifiedName.text (q : QualifiedName) : List Char :=
  (q.qualifier :: q.inner).flatMap (·.text ++ ['.']) ++ q.name.text

inductive Navigation
  | property (name : Identifier)
  | entity (name : Identifier) (key : PathKey)

inductive Operation
  | action (name : QualifiedName)
  | function (name : QualifiedName) (arguments : List (Identifier × String))
      (distinct : (arguments.map (·.1.text)).Nodup)
  | value

/-- A name with something in parentheses. -/
def keyed (name inside : List Char) : List Char := name ++ '(' :: inside ++ [')']

namespace Navigation

def text : Navigation → List Char
  | property name => name.text
  | entity name key => keyed name.text key.text

def onto (parent : ODataPath) : Navigation → ODataPath
  | property name => .navigationProperty parent (String.ofList name.text)
  | entity name key => .navigationEntity parent (String.ofList name.text) key.toKeyValue

end Navigation

namespace Operation

def text : Operation → List Char
  | action name => name.text
  | function name arguments _ => keyed name.text (argumentsText arguments)
  | value => "$value".toList

def onto (parent : ODataPath) : Operation → ODataPath
  | action name => .boundAction parent (String.ofList name.name.text)
  | function name arguments _ =>
    .boundFunction parent (String.ofList name.text) (argumentPairs arguments)
  | value => .value parent

end Operation

structure ResourcePath where
  set : Identifier
  key : PathKey
  navigations : List Navigation
  operation : Option Operation

namespace ResourcePath

def firstSegment (p : ResourcePath) : List Char := keyed p.set.text p.key.text

/-- The segments after the first. -/
def restSegments (p : ResourcePath) : List (List Char) :=
  p.navigations.map (·.text) ++ (p.operation.map (·.text)).toList

def toODataPath (p : ResourcePath) : ODataPath :=
  let base := p.navigations.foldl Navigation.onto
    (.entity (String.ofList p.set.text) p.key.toKeyValue)
  match p.operation with
  | some operation => operation.onto base
  | none => base

/-- Segments, each after a slash. -/
def slashed (segments : List (List Char)) : List Char := segments.flatMap ('/' :: ·)

def text (p : ResourcePath) : String :=
  String.ofList (slashed (p.firstSegment :: p.restSegments))

end ResourcePath

/-! ### Identifiers -/

lemma Identifier.not_mem (i : Identifier) {c : Char} (hc : isIdentifierChar c = false) :
    c ∉ i.text := by
  intro hmem
  have hvalid := i.valid
  unfold validateIdentifier at hvalid
  split at hvalid
  · cases hvalid
  · split_ifs at hvalid
    split at hvalid
    · cases hvalid
    · rename_i hfind
      have hall := List.find?_eq_none.mp hfind c hmem
      simp [hc] at hall

lemma Identifier.ne_nil (i : Identifier) : i.text ≠ [] := by
  intro hnil
  have hvalid := i.valid
  rw [hnil] at hvalid
  cases hvalid

lemma isIdentifierChar_bounds {c : Char} (h : isIdentifierChar c = true) :
    33 ≤ c.toNat ∧ c.toNat < 128 := by
  simp only [isIdentifierChar, isAsciiAlphabetic, Bool.or_eq_true, Bool.and_eq_true,
    decide_eq_true_eq, Char.le_def, UInt32.le_iff_toNat_le] at h
  rcases h with ((h | h) | h) | rfl
  · exact ⟨le_trans (by decide) h.1, lt_of_le_of_lt h.2 (by decide)⟩
  · exact ⟨le_trans (by decide) h.1, lt_of_le_of_lt h.2 (by decide)⟩
  · exact ⟨le_trans (by decide) h.1, lt_of_le_of_lt h.2 (by decide)⟩
  · decide

lemma not_isWhitespace_of_bounds {c : Char} (h : 33 ≤ c.toNat ∧ c.toNat < 128) :
    isWhitespace c = false := by
  unfold isWhitespace
  simp only [Bool.or_eq_false_iff, Bool.and_eq_false_iff, decide_eq_false_iff_not]
  omega

/-! ### Blanks -/

variable {cs : List Char}

/-- Nothing is trimmed from a text that neither starts nor ends in a blank. -/
lemma trimText_eq_self {c d : Char} (hc : isWhitespace c = false) (hd : isWhitespace d = false)
    (hlast : (c :: cs).getLast? = some d) : trimText (c :: cs) = c :: cs := by
  unfold trimText trimChars
  have hrev : ∃ ds, (c :: cs).reverse = d :: ds := by
    obtain ⟨init, hinit⟩ := List.getLast?_eq_some_iff.mp hlast
    exact ⟨init.reverse, by rw [hinit]; simp⟩
  obtain ⟨ds, hds⟩ := hrev
  rw [List.dropWhile_cons_of_neg (by simp [hc]), hds, List.dropWhile_cons_of_neg (by simp [hd]),
    ← hds, List.reverse_reverse]

/-- Trimming takes only blanks. -/
lemma count_trimText (cs : List Char) : (trimText cs).count '\'' = cs.count '\'' := by
  have hdrop : ∀ l : List Char, (l.dropWhile isWhitespace).count '\'' = l.count '\'' := by
    intro l
    induction l with
    | nil => rfl
    | cons c l ih =>
      by_cases hc : isWhitespace c = true
      · rw [List.dropWhile_cons_of_pos hc, ih, List.count_cons_of_ne]
        rintro rfl
        exact absurd hc (by decide)
      · rw [List.dropWhile_cons_of_neg hc]
  unfold trimText trimChars
  rw [List.count_reverse, hdrop, List.count_reverse, hdrop]

/-! ### Quoted literals -/

lemma quoted_getLast? (value : String) : (quoted value).getLast? = some '\'' := by
  unfold quoted
  rw [← List.cons_append, List.getLast?_concat]

lemma trimText_quoted (value : String) : trimText (quoted value) = quoted value :=
  trimText_eq_self (by decide) (by decide) (quoted_getLast? value)

lemma unquote_doubleQuotes (whole value cs : List Char) :
    unquote whole value (doubleQuotes cs ++ ['\'']) = .ok (String.ofList (value ++ cs)) := by
  induction cs generalizing value with
  | nil => simp [doubleQuotes, unquote]
  | cons c cs ih =>
    unfold doubleQuotes
    split_ifs with hc
    · rw [List.cons_append, List.cons_append, unquote, ih]
      simp [hc]
    · rw [List.cons_append, unquote, ih]
      · simp
      all_goals simp [hc]

lemma parseKeyLiteral_quoted (value : String) : parseKeyLiteral (quoted value) = .ok value := by
  change unquote _ [] (doubleQuotes value.toList ++ ['\'']) = .ok value
  rw [unquote_doubleQuotes]
  simp

/-! ### Composite keys -/

lemma isCompositeKey_doubleQuotes (cs rest : List Char) :
    isCompositeKey true (doubleQuotes cs ++ rest) = isCompositeKey true rest := by
  induction cs with
  | nil => rfl
  | cons c cs ih =>
    unfold doubleQuotes
    split_ifs with hc
    · rw [List.cons_append, List.cons_append]
      simpa [isCompositeKey] using ih
    · rw [List.cons_append]
      simpa [isCompositeKey, hc] using ih

lemma isCompositeKey_quoted (value : String) : isCompositeKey false (quoted value) = false := by
  unfold quoted
  simp [isCompositeKey, isCompositeKey_doubleQuotes]

lemma isCompositeKey_of_name {name rest : List Char} (hquote : '\'' ∉ name) (heq : '=' ∉ name) :
    isCompositeKey false (name ++ '=' :: rest) = true := by
  induction name with
  | nil => simp [isCompositeKey]
  | cons c name ih =>
    rw [List.mem_cons, not_or] at hquote heq
    rw [List.cons_append, isCompositeKey, if_neg (Ne.symm hquote.1), if_neg (by simp [Ne.symm heq.1])]
    exact ih hquote.2 heq.2

lemma splitCompositeKey_doubleQuotes (current cs rest : List Char) :
    splitCompositeKey true current (doubleQuotes cs ++ rest) =
      splitCompositeKey true (current ++ doubleQuotes cs) rest := by
  induction cs generalizing current with
  | nil => simp [doubleQuotes]
  | cons c cs ih =>
    unfold doubleQuotes
    split_ifs with hc
    · rw [List.cons_append, List.cons_append]
      simp [splitCompositeKey, ih]
    · rw [List.cons_append]
      simp [splitCompositeKey, hc, ih]

lemma splitCompositeKey_name {current name rest : List Char} (hquote : '\'' ∉ name)
    (hcomma : ',' ∉ name) : splitCompositeKey false current (name ++ rest) =
      splitCompositeKey false (current ++ name) rest := by
  induction name generalizing current with
  | nil => simp
  | cons c name ih =>
    rw [List.mem_cons, not_or] at hquote hcomma
    rw [List.cons_append, splitCompositeKey, if_neg (Ne.symm hquote.1),
      if_neg (by simp [Ne.symm hcomma.1]), ih hquote.2 hcomma.2]
    simp

lemma splitCompositeKey_argument (current : List Char) (argument : Identifier × String)
    (rest : List Char) : splitCompositeKey false current (argumentText argument ++ rest) =
      splitCompositeKey false (current ++ argumentText argument) rest := by
  unfold argumentText quoted
  rw [List.append_assoc, splitCompositeKey_name (argument.1.not_mem (by decide))
    (argument.1.not_mem (by decide))]
  simp [splitCompositeKey, splitCompositeKey_doubleQuotes]

lemma argumentText_ne_nil (argument : Identifier × String) : argumentText argument ≠ [] := by
  simp [argumentText]

lemma splitCompositeKey_arguments (arguments : List (Identifier × String)) :
    splitCompositeKey false [] (argumentsText arguments) =
      .ok (arguments.map argumentText) := by
  induction arguments with
  | nil => rfl
  | cons argument rest ih =>
    cases rest with
    | nil =>
      have happend := splitCompositeKey_argument [] argument []
      rw [List.append_nil, List.nil_append] at happend
      change splitCompositeKey false [] (argumentText argument) = _
      rw [happend]
      simp [splitCompositeKey, argumentText_ne_nil]
    | cons next rest =>
      change splitCompositeKey false [] (argumentText argument ++ ',' :: argumentsText (next :: rest)) = _
      rw [splitCompositeKey_argument]
      simp [splitCompositeKey, ih, Except.map]

/-! ### Arguments and keys -/

lemma argumentText_getLast? (argument : Identifier × String) :
    (argumentText argument).getLast? = some '\'' := by
  unfold argumentText
  rw [List.getLast?_append, List.getLast?_cons, quoted_getLast?]
  rfl

/-- A text that starts with a name is not blank at its start. -/
lemma Identifier.trimText_append (i : Identifier) {rest : List Char} {d : Char}
    (hd : isWhitespace d = false) (hlast : (i.text ++ rest).getLast? = some d) :
    trimText (i.text ++ rest) = i.text ++ rest := by
  cases htext : i.text with
  | nil => exact absurd htext i.ne_nil
  | cons c cs =>
    rw [htext] at hlast
    refine trimText_eq_self ?_ hd hlast
    by_contra hblank
    have hspecial : isIdentifierChar c = false := by
      by_contra hc
      rw [Bool.not_eq_false] at hc
      exact hblank (not_isWhitespace_of_bounds (isIdentifierChar_bounds hc))
    exact i.not_mem hspecial (by rw [htext]; exact List.mem_cons_self)

lemma Identifier.exists_concat (i : Identifier) :
    ∃ init d, i.text = init ++ [d] ∧ isIdentifierChar d = true := by
  rcases List.eq_nil_or_concat i.text with hnil | ⟨init, d, hconcat⟩
  · exact absurd hnil i.ne_nil
  · rw [List.concat_eq_append] at hconcat
    refine ⟨init, d, hconcat, ?_⟩
    by_contra hspecial
    rw [Bool.not_eq_true] at hspecial
    exact i.not_mem hspecial (by rw [hconcat]; simp)

lemma Identifier.trimText_text (i : Identifier) : trimText i.text = i.text := by
  obtain ⟨init, d, hd, hid⟩ := i.exists_concat
  have hlast : (i.text ++ []).getLast? = some d := by rw [hd]; simp
  have htrim := i.trimText_append (not_isWhitespace_of_bounds (isIdentifierChar_bounds hid)) hlast
  rwa [List.append_nil] at htrim

lemma trimText_argumentText (argument : Identifier × String) :
    trimText (argumentText argument) = argumentText argument :=
  argument.1.trimText_append (by decide) (argumentText_getLast? argument)

lemma splitOnce_argumentText (argument : Identifier × String) :
    splitOnce '=' (argumentText argument) = some (argument.1.text, quoted argument.2) :=
  splitOnce_append (argument.1.not_mem (by decide)) _

lemma parseKeyPart_argumentText (argument : Identifier × String) :
    parseKeyPart (argumentText argument) = .ok (String.ofList argument.1.text, argument.2) := by
  unfold parseKeyPart
  dsimp only
  rw [trimText_argumentText, splitOnce_argumentText]
  dsimp only
  rw [trimText_quoted, parseKeyLiteral_quoted, argument.1.trimText_text]
  rfl

lemma mapM_parseKeyPart (arguments : List (Identifier × String)) :
    (arguments.map argumentText).mapM parseKeyPart = .ok (argumentPairs arguments) := by
  induction arguments with
  | nil => rfl
  | cons argument rest ih =>
    rw [List.map_cons, List.mapM_cons, parseKeyPart_argumentText, ih]
    rfl

lemma argumentsText_cons (argument : Identifier × String) (rest : List (Identifier × String)) :
    ∃ tail, argumentsText (argument :: rest) = argument.1.text ++ '=' :: tail ∧
      (argumentsText (argument :: rest)).getLast? = some '\'' := by
  induction rest generalizing argument with
  | nil => exact ⟨quoted argument.2, rfl, argumentText_getLast? argument⟩
  | cons next rest ih =>
    obtain ⟨tail, -, hlast⟩ := ih next
    refine ⟨quoted argument.2 ++ ',' :: argumentsText (next :: rest), ?_, ?_⟩
    · simp [argumentsText, argumentText]
    · change (argumentText argument ++ ',' :: argumentsText (next :: rest)).getLast? = _
      rw [List.getLast?_append, List.getLast?_cons, hlast]
      rfl

lemma trimText_argumentsText (arguments : List (Identifier × String)) :
    trimText (argumentsText arguments) = argumentsText arguments := by
  cases arguments with
  | nil => rfl
  | cons argument rest =>
    obtain ⟨tail, htext, hlast⟩ := argumentsText_cons argument rest
    rw [htext] at hlast ⊢
    exact argument.1.trimText_append (by decide) hlast

/-- The key passes read every key back. -/
theorem parseKeyValue_text (key : PathKey) : parseKeyValue key.text = .ok key.toKeyValue := by
  unfold parseKeyValue
  cases key with
  | single value =>
    simp only [PathKey.text, trimText_quoted, isCompositeKey_quoted, parseKeyLiteral_quoted]
    rfl
  | composite arguments nonempty =>
    cases arguments with
    | nil => exact absurd rfl nonempty
    | cons argument rest =>
      have hcomposite : isCompositeKey false (argumentsText (argument :: rest)) = true := by
        obtain ⟨tail, htext, -⟩ := argumentsText_cons argument rest
        rw [htext]
        exact isCompositeKey_of_name (argument.1.not_mem (by decide))
          (argument.1.not_mem (by decide))
      have hne : (argumentsText (argument :: rest)).isEmpty = false := by
        obtain ⟨tail, htext, -⟩ := argumentsText_cons argument rest
        rw [htext]
        simp
      simp only [PathKey.text, trimText_argumentsText, hcomposite, hne,
        splitCompositeKey_arguments]
      simp only [bind, Except.bind, mapM_parseKeyPart]
      rfl

lemma parseFunctionArguments_text (params : List (String × String))
    (arguments : List (Identifier × String)) (hdistinct : (arguments.map (·.1.text)).Nodup)
    (hnew : ∀ argument ∈ arguments, ∀ param ∈ params,
      param.1 ≠ String.ofList argument.1.text) :
    parseFunctionArguments params (arguments.map argumentText) =
      .ok (params ++ argumentPairs arguments) := by
  induction arguments generalizing params with
  | nil => simp [parseFunctionArguments, argumentPairs]
  | cons argument rest ih =>
    have hname : String.ofList argument.1.text ≠ "" := fun heq =>
      argument.1.ne_nil (String.ofList_injective heq)
    have hany : (params.any fun param => param.1 = String.ofList argument.1.text) = false := by
      rw [List.any_eq_false]
      intro param hparam
      simpa using hnew argument List.mem_cons_self param hparam
    rw [List.map_cons, List.nodup_cons] at hdistinct
    rw [List.map_cons]
    unfold parseFunctionArguments
    dsimp only
    rw [trimText_argumentText, splitOnce_argumentText]
    dsimp only
    rw [argument.1.trimText_text, if_neg hname, hany, if_neg (by simp), trimText_quoted,
      parseKeyLiteral_quoted]
    simp only [bind, Except.bind]
    rw [ih _ hdistinct.2]
    · simp [argumentPairs]
    · intro argument' hargument' param hparam
      rcases List.mem_append.mp hparam with hparam | hparam
      · exact hnew argument' (List.mem_cons_of_mem _ hargument') param hparam
      · rw [List.mem_singleton] at hparam
        subst hparam
        intro heq
        have htext : argument.1.text = argument'.1.text := String.ofList_injective heq
        exact hdistinct.1 (List.mem_map.mpr ⟨argument', hargument', htext.symm⟩)

/-- The argument passes read every argument list back. -/
theorem parseFunctionParams_text (arguments : List (Identifier × String))
    (hdistinct : (arguments.map (·.1.text)).Nodup) :
    parseFunctionParams (argumentsText arguments) = .ok (argumentPairs arguments) := by
  unfold parseFunctionParams
  rw [trimText_argumentsText]
  cases arguments with
  | nil => rfl
  | cons argument rest =>
    have hne : (argumentsText (argument :: rest)).isEmpty = false := by
      obtain ⟨tail, htext, -⟩ := argumentsText_cons argument rest
      rw [htext]
      simp
    rw [hne, if_neg (by simp), splitCompositeKey_arguments]
    simp only [bind, Except.bind]
    rw [parseFunctionArguments_text [] _ hdistinct (fun _ _ param hparam => nomatch hparam)]
    simp

lemma exists_of_map_ok {ε α β : Type} {f : α → β} {r : Except ε α} {b : β}
    (h : r.map f = .ok b) : ∃ a, r = .ok a ∧ f a = b := by
  cases r with
  | error e => cases h
  | ok a => exact ⟨a, rfl, Except.ok.inj h⟩

lemma exists_of_bind_ok {ε α β : Type} {r : Except ε α} {f : α → Except ε β} {b : β}
    (h : (r >>= f) = .ok b) : ∃ a, r = .ok a ∧ f a = .ok b := by
  cases r with
  | error e => cases h
  | ok a => exact ⟨a, rfl, h⟩

/-! ### Quotes in what is accepted

Whatever the key passes accept has an even number of quotes. -/

lemma odd_of_unquote {whole value : List Char} {s : String} (h : unquote whole value cs = .ok s) :
    Odd (cs.count '\'') := by
  fun_induction unquote whole value cs with
  | case1 => cases h
  | case2 value rest ih =>
    rw [List.count_cons_self, List.count_cons_self, add_assoc]
    exact (ih h).add_even (by decide)
  | case3 => decide
  | case4 => cases h
  | case5 value ch rest hdoubled hlast hother ih =>
    have hch : ch ≠ '\'' := by
      rintro rfl
      cases rest with
      | nil => exact hlast rfl rfl
      | cons c cs => exact hother c cs rfl rfl
    rw [List.count_cons_of_ne hch]
    exact ih h

lemma even_of_parseKeyLiteral {s : String} (h : parseKeyLiteral cs = .ok s) :
    Even (cs.count '\'') := by
  unfold parseKeyLiteral at h
  split at h
  · rw [List.count_cons_self]
    exact (odd_of_unquote h).add_one
  · split_ifs at h with hquote
    rw [List.count_eq_zero_of_not_mem hquote]
    exact Even.zero

lemma even_of_splitCompositeKey {inQuotes : Bool} {current : List Char} {parts : List (List Char)}
    (h : splitCompositeKey inQuotes current cs = .ok parts) :
    Even (cs.count '\'' + inQuotes.toNat) := by
  induction cs generalizing inQuotes current parts with
  | nil =>
    cases inQuotes with
    | true => cases h
    | false => exact Even.zero
  | cons ch cs ih =>
    unfold splitCompositeKey at h
    split_ifs at h with hch hcomma
    · have heven := ih h
      rw [hch, List.count_cons_self]
      cases inQuotes <;> simp_all [Nat.even_add_one, add_assoc]
    · obtain ⟨rest, hrest, -⟩ := exists_of_map_ok h
      have hquotes : inQuotes = false := by simpa using hcomma.2
      rw [List.count_cons_of_ne hch, hquotes]
      exact ih hrest
    · rw [List.count_cons_of_ne hch]
      exact ih h

lemma even_of_parseKeyValue {key : KeyValue} (h : parseKeyValue cs = .ok key) :
    Even (cs.count '\'') := by
  unfold parseKeyValue at h
  dsimp only at h
  rw [← count_trimText]
  split_ifs at h
  · obtain ⟨parts, hparts, -⟩ := exists_of_bind_ok h
    simpa using even_of_splitCompositeKey hparts
  · obtain ⟨value, hvalue, -⟩ := exists_of_bind_ok h
    exact even_of_parseKeyLiteral hvalue

lemma even_of_parseFunctionParams {params : List (String × String)}
    (h : parseFunctionParams cs = .ok params) : Even (cs.count '\'') := by
  unfold parseFunctionParams at h
  split_ifs at h with hblank
  · rw [← count_trimText, List.isEmpty_iff.mp hblank]
    exact Even.zero
  · obtain ⟨parts, hparts, -⟩ := exists_of_bind_ok h
    simpa using even_of_splitCompositeKey hparts

end Temper.Odata
