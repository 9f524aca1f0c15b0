import Mathlib
import Temper.Host

/-!
# Names

Case conversion between the spec's snake_case and the wire's PascalCase, the names the runtime
owns, and the `str` operations of the specification crate.
-/

namespace Temper.Spec

variable [Host]

/-! ### Case conversion -/

/-- The characters of `to_snake_case`; `prev` is the character before the ones still to read. -/
def snakeChars (prev : Option Char) : List Char → List Char
  | [] => []
  | ch :: rest =>
    let separator := match prev with
      | none => false
      | some p => Host.isUppercase ch && (!Host.isUppercase p || rest.head?.any Host.isLowercase)
    (if separator then ['_'] else []) ++ Host.toLowercase ch :: snakeChars (some ch) rest

def toSnakeCase (s : String) : String := String.ofList (snakeChars none s.toList)

/-- The words of `s` between underscores and dashes. -/
def splitWords (s : String) : List (List Char) := s.toList.splitOnP fun c => c = '_' || c = '-'

def toPascalCase (s : String) : String :=
  String.join ((splitWords s).map fun
    | [] => ""
    | first :: rest => Host.toUppercase first ++ String.ofList rest)

omit [Host]

/-! ### Names the runtime owns -/

def startsWith (s pre : String) : Bool := pre.toList.isPrefixOf s.toList

def endsWith (s suf : String) : Bool := suf.toList.isSuffixOf s.toList

/-- The server-derived context-status namespace `ctx_…_status`. -/
def isServerDerivedContextStatusName (name : String) : Bool :=
  startsWith name "ctx_" && endsWith name "_status"

/-- Whether a field name is owned by the runtime rather than by an action. -/
def isServerDerivedFieldName (name : String) : Bool :=
  ["Id", "id", "Status", "status", "has_spec", "HasSpec",
    "_temper_state_timeout_declaration_v1"].contains name ||
    isServerDerivedContextStatusName name

/-! ### Strings -/

/-- The Unicode `White_Space` property, which `str::trim` strips. -/
def isWhitespace (c : Char) : Bool :=
  let n := c.toNat
  (9 ≤ n && n ≤ 13) || n = 32 || n = 0x85 || n = 0xA0 || n = 0x1680 ||
    (0x2000 ≤ n && n ≤ 0x200A) || n = 0x2028 || n = 0x2029 || n = 0x202F || n = 0x205F ||
    n = 0x3000

/-- Strip the characters satisfying `p` from both ends. -/
def trimChars (p : Char → Bool) (cs : List Char) : List Char :=
  ((cs.dropWhile p).reverse.dropWhile p).reverse

def trim (s : String) : String := String.ofList (trimChars isWhitespace s.toList)

/-- `str::parse::<usize>`: an optional `+`, then decimal digits, below `2 ^ 64`. -/
def parseUsize (s : String) : Option Nat :=
  let digits := match s.toList with
    | '+' :: ds => ds
    | ds => ds
  if digits.isEmpty || !digits.all Char.isDigit then none
  else
    let n := digits.foldl (fun n d => 10 * n + (d.toNat - 48)) 0
    if n < 2 ^ 64 then some n else none

variable {c : Char}

lemma isDigit_of_mem_toString {n : Nat} (h : c ∈ (toString n).toList) : c.isDigit = true := by
  rw [Nat.toString_eq_ofList_toDigits, String.toList_ofList] at h
  exact Nat.isDigit_of_mem_toDigits (by decide) (by decide) h

lemma parseUsize_toString {n : Nat} (h : n < 2 ^ 64) : parseUsize (toString n) = some n := by
  have hvalue : (Nat.toDigits 10 n).foldl (fun n d => 10 * n + (d.toNat - 48)) 0 = n :=
    Nat.ofDigitChars_ten_toDigits
  have hall : (toString n).toList.all Char.isDigit = true :=
    List.all_eq_true.mpr fun c hc => isDigit_of_mem_toString hc
  unfold parseUsize
  split
  next ds heq =>
    have hplus : '+'.isDigit = true := isDigit_of_mem_toString (n := n) (by rw [heq]; simp)
    exact absurd hplus (by decide)
  next ds _ =>
    rw [Nat.toString_eq_ofList_toDigits, String.toList_ofList] at hall ⊢
    dsimp only
    rw [hall, hvalue, if_neg (by simp [Nat.toDigits_ne_nil])]
    exact if_pos h

/-- Whether `needle` occurs in `s`. -/
def contains (s needle : String) : Bool := s.toList.tails.any needle.toList.isPrefixOf

/-- `str::eq_ignore_ascii_case`. -/
def eqIgnoreAsciiCase (a b : String) : Bool :=
  a.toList.map Char.toLower == b.toList.map Char.toLower

/-! ### Splitting -/

/-- `str::split_once`: before and after the first occurrence. -/
def splitOnce (c : Char) : List Char → Option (List Char × List Char)
  | [] => none
  | d :: cs => if d = c then some ([], cs) else (splitOnce c cs).map fun p => (d :: p.1, p.2)

/-- `str::rsplit_once`: before and after the last occurrence. -/
def rsplitOnce (c : Char) : List Char → Option (List Char × List Char)
  | [] => none
  | d :: cs => match rsplitOnce c cs with
    | some (before, after) => some (d :: before, after)
    | none => if d = c then some ([], cs) else none

/-- `str::strip_suffix`. -/
def stripSuffix (suffix cs : List Char) : Option (List Char) :=
  if suffix.isSuffixOf cs then some (cs.take (cs.length - suffix.length)) else none

variable {cs : List Char}

lemma splitOnce_eq_some {before after : List Char} (h : splitOnce c cs = some (before, after)) :
    cs = before ++ c :: after ∧ c ∉ before := by
  induction cs generalizing before with
  | nil => cases h
  | cons d cs ih =>
    unfold splitOnce at h
    split_ifs at h with hd
    · cases h
      exact ⟨by rw [hd]; rfl, List.not_mem_nil⟩
    · obtain ⟨⟨before', after'⟩, hsplit, heq⟩ := Option.map_eq_some_iff.mp h
      cases heq
      obtain ⟨hcs, hnot⟩ := ih hsplit
      refine ⟨by rw [hcs]; rfl, ?_⟩
      rw [List.mem_cons, not_or]
      exact ⟨Ne.symm hd, hnot⟩

lemma splitOnce_eq_none (h : c ∉ cs) : splitOnce c cs = none := by
  induction cs with
  | nil => rfl
  | cons d cs ih =>
    rw [List.mem_cons, not_or] at h
    rw [splitOnce, if_neg (Ne.symm h.1), ih h.2]
    rfl

lemma rsplitOnce_append {after : List Char} (h : c ∉ after) (before : List Char) :
    rsplitOnce c (before ++ c :: after) = some (before, after) := by
  have hnone : rsplitOnce c after = none := by
    induction after with
    | nil => rfl
    | cons d after ih =>
      rw [List.mem_cons, not_or] at h
      rw [rsplitOnce, ih h.2]
      exact if_neg (Ne.symm h.1)
  induction before with
  | nil =>
    rw [List.nil_append, rsplitOnce, hnone]
    exact if_pos rfl
  | cons d before ih => rw [List.cons_append, rsplitOnce, ih]

lemma rsplitOnce_eq_some {before after : List Char} (h : rsplitOnce c cs = some (before, after)) :
    cs = before ++ c :: after := by
  induction cs generalizing before with
  | nil => cases h
  | cons d cs ih =>
    rw [rsplitOnce] at h
    cases hrest : rsplitOnce c cs with
    | some parts =>
      rw [hrest] at h
      cases h
      rw [ih hrest, List.cons_append]
    | none =>
      rw [hrest] at h
      dsimp only at h
      split_ifs at h with hd
      cases h
      rw [hd, List.nil_append]

lemma stripSuffix_append (cs suffix : List Char) : stripSuffix suffix (cs ++ suffix) = some cs := by
  rw [stripSuffix, if_pos (by simp), List.length_append, Nat.add_sub_cancel, List.take_left]

lemma stripSuffix_eq_some {suffix rest : List Char} (h : stripSuffix suffix cs = some rest) :
    cs = rest ++ suffix := by
  unfold stripSuffix at h
  split_ifs at h with hsuffix
  obtain ⟨front, rfl⟩ := List.isSuffixOf_iff_suffix.mp hsuffix
  cases h
  rw [List.length_append, Nat.add_sub_cancel, List.take_left]

lemma splitOnce_append {before : List Char} (h : c ∉ before) (after : List Char) :
    splitOnce c (before ++ c :: after) = some (before, after) := by
  induction before with
  | nil => simp [splitOnce]
  | cons d before ih =>
    rw [List.mem_cons, not_or] at h
    rw [List.cons_append, splitOnce, if_neg (Ne.symm h.1), ih h.2]
    rfl

end Temper.Spec
