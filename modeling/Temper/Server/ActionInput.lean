import Mathlib
import Temper.Lib.Base64
import Temper.Spec.Bundle.Digest

/-!
# The lexical form of binary action inputs

A value of type `Edm.Binary` is a string of URL-safe base64, with or without its pad characters. It
is checked on its bytes: those of the alphabet, then the pad characters, and in the last character
nothing but zeros in the bits that belong to no byte.
-/

namespace Temper.Server

open Base64 Spec.Bundle

def isAsciiAlphanumeric (byte : UInt8) : Bool :=
  (48 ≤ byte && byte ≤ 57) || (65 ≤ byte && byte ≤ 90) || (97 ≤ byte && byte ≤ 122)

def isUrlSafe (byte : UInt8) : Bool := isAsciiAlphanumeric byte || byte == 45 || byte == 95

/-- The last byte is one of the given characters. -/
def lastIn (characters : String) (bs : List UInt8) : Bool :=
  bs.getLast?.any (utf8 characters).contains

/-- The cases of `binary_lexical` by the length of the unpadded text. -/
def completes (unpadded : List UInt8) (padding : Nat) : Bool :=
  match unpadded.length % 4 with
  | 0 => padding == 0
  | 2 => (padding == 0 || padding == 2) && lastIn "AQgw" unpadded
  | 3 => decide (padding ≤ 1) && lastIn "AEIMQUYcgkosw048" unpadded
  | _ => false

/-- The text as its bytes: `=` is a byte of its own, and no byte of another character. -/
def binaryLexical (value : String) : Bool :=
  let text := utf8 value
  let unpadded := text.rdropWhile (· == 61)
  let padding := text.length - unpadded.length
  if padding > 2 || unpadded.any (fun byte => !isUrlSafe byte) then false
  else completes unpadded padding

/-! ### The alphabet as bytes -/

def symbolByte (x : Nat) : UInt8 := (symbol x).toUInt8

/-- The sextet of a byte of the alphabet. -/
def sextetOf (byte : UInt8) : Nat :=
  if 97 ≤ byte then byte.toNat - 97 + 26
  else if byte == 95 then 63
  else if 65 ≤ byte then byte.toNat - 65
  else if 48 ≤ byte then byte.toNat - 48 + 52
  else 62

lemma symbolByte_sextetOf {byte : UInt8} (h : isUrlSafe byte = true) :
    sextetOf byte < 64 ∧ symbolByte (sextetOf byte) = byte := by
  have hall : ∀ n < 256, isUrlSafe (UInt8.ofNat n) = true →
      sextetOf (UInt8.ofNat n) < 64 ∧ symbolByte (sextetOf (UInt8.ofNat n)) = UInt8.ofNat n := by
    decide +kernel
  have hbyte := hall byte.toNat byte.toNat_lt
  rw [UInt8.ofNat_toNat] at hbyte
  exact hbyte h

lemma isUrlSafe_symbolByte {x : Nat} (h : x < 64) :
    isUrlSafe (symbolByte x) = true ∧ (symbolByte x == 61) = false := by
  have hall : ∀ x < 64, isUrlSafe (symbolByte x) = true ∧ (symbolByte x == 61) = false := by
    decide +kernel
  exact hall x h

lemma utf8Size_symbol {x : Nat} (h : x < 64) : (symbol x).utf8Size = 1 := by
  have hall : ∀ x < 64, (symbol x).utf8Size = 1 := by decide +kernel
  exact hall x h

lemma symbolByte_mem_iff {x : Nat} (h : x < 64) :
    ((utf8 "AQgw").contains (symbolByte x) = true ↔ x % 16 = 0) ∧
      ((utf8 "AEIMQUYcgkosw048").contains (symbolByte x) = true ↔ x % 4 = 0) := by
  have hall : ∀ x < 64, ((utf8 "AQgw").contains (symbolByte x) = true ↔ x % 16 = 0) ∧
      ((utf8 "AEIMQUYcgkosw048").contains (symbolByte x) = true ↔ x % 4 = 0) := by
    decide +kernel
  exact hall x h

lemma utf8_append (s t : String) : utf8 (s ++ t) = utf8 s ++ utf8 t := by
  simp [utf8, String.toByteArray_append]

/-- A text of one-byte characters has their bytes. -/
lemma utf8_ofList {cs : List Char} (h : ∀ c ∈ cs, c.utf8Size = 1) :
    utf8 (String.ofList cs) = cs.map Char.toUInt8 := by
  induction cs with
  | nil => rfl
  | cons c cs ih =>
    have hc : utf8 (String.ofList [c]) = [c.toUInt8] := by
      rw [utf8, String.toByteArray_ofList, List.utf8Encode_singleton,
        String.utf8EncodeChar_eq_singleton (h c List.mem_cons_self)]
      simp
    rw [← List.singleton_append, String.ofList_append, utf8_append, hc,
      ih fun d hd => h d (List.mem_cons_of_mem c hd)]
    rfl

lemma utf8_encodeUrlSafe (bs : List UInt8) :
    utf8 (encodeUrlSafe bs) = (sextets bs).map symbolByte := by
  rw [encodeUrlSafe, utf8_ofList, List.map_map]
  · rfl
  · intro c hc
    obtain ⟨x, hx, rfl⟩ := List.mem_map.mp hc
    exact utf8Size_symbol (sextets_lt x hx)

lemma utf8_padding (bs : List UInt8) : utf8 (padding bs) = List.replicate (padLength bs) 61 := by
  rw [padding, utf8_ofList, List.map_replicate]
  · rfl
  · intro c hc
    obtain rfl := List.eq_of_mem_replicate hc
    decide

/-! ### What is accepted -/

lemma lastIn_map {characters : String} {m : Nat} (hm : ∀ x < 64,
      (utf8 characters).contains (symbolByte x) = true ↔ x % m = 0)
    {xs : List Nat} (hlt : ∀ x ∈ xs, x < 64) (hne : xs ≠ []) :
    lastIn characters (xs.map symbolByte) = true ↔ ∀ x, xs.getLast? = some x → x % m = 0 := by
  have hlast := List.getLast?_eq_some_getLast hne
  simp only [lastIn, List.getLast?_map, hlast, Option.map_some, Option.any_some,
    hm _ (hlt _ (List.getLast_mem hne)), Option.some.injEq, forall_eq']

/-- The cases by length are those of canonical sextets, with no pad characters or all of them. -/
lemma completes_map {xs : List Nat} (hlt : ∀ x ∈ xs, x < 64) {padding : Nat} (h : padding ≤ 2) :
    completes (xs.map symbolByte) padding = true ↔
      Canonical xs ∧ (padding = 0 ∨ (xs.length + padding) % 4 = 0) := by
  have hne : xs.length % 4 ≠ 0 → xs ≠ [] := by
    rintro h rfl
    exact h rfl
  have htwo := lastIn_map (fun x hx => (symbolByte_mem_iff hx).1) hlt
  have hthree := lastIn_map (fun x hx => (symbolByte_mem_iff hx).2) hlt
  have hmod : xs.length % 4 < 4 := Nat.mod_lt _ (by decide)
  unfold completes Canonical
  rw [List.length_map]
  obtain hlength | hlength | hlength | hlength : xs.length % 4 = 0 ∨ xs.length % 4 = 1 ∨
      xs.length % 4 = 2 ∨ xs.length % 4 = 3 := by omega
  · simp only [hlength, beq_iff_eq, true_and]
    omega
  · simp only [hlength, Bool.false_eq_true, false_and]
  · simp only [hlength, Bool.and_eq_true, Bool.or_eq_true, beq_iff_eq,
      htwo (hne (by omega))]
    refine and_comm.trans (and_congr_right fun _ => ?_)
    omega
  · simp only [hlength, Bool.and_eq_true, decide_eq_true_eq, hthree (hne (by omega))]
    refine and_comm.trans (and_congr_right fun _ => ?_)
    omega

/-- A text of the alphabet with pad characters behind it falls into these two. -/
lemma rdropWhile_symbols {xs : List Nat} (hlt : ∀ x ∈ xs, x < 64) (padding : Nat) :
    (xs.map symbolByte ++ List.replicate padding 61).rdropWhile (· == 61) =
      xs.map symbolByte := by
  induction padding with
  | zero =>
    rw [List.replicate_zero, List.append_nil, List.rdropWhile_eq_self_iff]
    intro hne
    obtain ⟨x, hx, heq⟩ := List.mem_map.mp (List.getLast_mem hne)
    rw [← heq, (isUrlSafe_symbolByte (hlt x hx)).2]
    decide
  | succ padding ih =>
    rw [List.replicate_succ', ← List.append_assoc, List.rdropWhile_concat_pos _ _ _ (by decide), ih]

lemma exists_symbols {bs : List UInt8} (h : ∀ byte ∈ bs, isUrlSafe byte = true) :
    ∃ xs : List Nat, (∀ x ∈ xs, x < 64) ∧ xs.map symbolByte = bs := by
  refine ⟨bs.map sextetOf, ?_, ?_⟩
  · intro x hx
    obtain ⟨byte, hbyte, rfl⟩ := List.mem_map.mp hx
    exact (symbolByte_sextetOf (h byte hbyte)).1
  · rw [List.map_map]
    refine (List.map_congr_left fun byte hbyte => ?_).trans (List.map_id bs)
    exact (symbolByte_sextetOf (h byte hbyte)).2

/-- What is trimmed off is made of pad characters. -/
lemma eq_rdropWhile_append_replicate (text : List UInt8) :
    text = text.rdropWhile (· == 61) ++
      List.replicate (text.length - (text.rdropWhile (· == 61)).length) 61 := by
  have hsplit : text.rdropWhile (· == 61) ++ text.rtakeWhile (· == 61) = text :=
    List.rdropWhile_append_rtakeWhile
  have hpads : text.rtakeWhile (· == 61) =
      List.replicate (text.rtakeWhile (· == 61)).length 61 := by
    rw [List.eq_replicate_iff]
    exact ⟨rfl, fun byte hbyte => by simpa using List.mem_rtakeWhile_imp hbyte⟩
  have hlength := congrArg List.length hsplit
  rw [List.length_append] at hlength
  have hcount : text.length - (text.rdropWhile (· == 61)).length =
      (text.rtakeWhile (· == 61)).length := by omega
  rw [hcount, ← hpads, hsplit]

lemma binaryLexical_iff {value : String} : binaryLexical value = true ↔
    ∃ xs padding, (∀ x ∈ xs, x < 64) ∧ Canonical xs ∧ padding ≤ 2 ∧
      (padding = 0 ∨ (xs.length + padding) % 4 = 0) ∧
      utf8 value = xs.map symbolByte ++ List.replicate padding 61 := by
  constructor
  · intro h
    simp only [binaryLexical] at h
    set unpadded := (utf8 value).rdropWhile (· == 61) with hunpadded
    set pads := (utf8 value).length - unpadded.length with hpads
    split at h
    · exact absurd h (by decide)
    rename_i hplain
    simp only [Bool.or_eq_true, decide_eq_true_eq, not_or, List.any_eq_true, not_exists, not_and,
      Bool.not_eq_true', Bool.not_eq_false, not_lt] at hplain
    obtain ⟨hle, hsafe⟩ := hplain
    obtain ⟨xs, hlt, hxs⟩ := exists_symbols hsafe
    have htext : utf8 value = xs.map symbolByte ++ List.replicate pads 61 := by
      rw [hxs]
      exact eq_rdropWhile_append_replicate (utf8 value)
    rw [← hxs, completes_map hlt hle] at h
    exact ⟨xs, pads, hlt, h.1, hle, h.2, htext⟩
  · rintro ⟨xs, padding, hlt, hcanonical, hle, hpad, htext⟩
    have hunpadded := rdropWhile_symbols hlt padding
    have hlength : (xs.map symbolByte ++ List.replicate padding 61).length -
        (xs.map symbolByte).length = padding := by
      rw [List.length_append, List.length_replicate]
      omega
    have hsafe : (xs.map symbolByte).any (fun byte => !isUrlSafe byte) = false := by
      rw [List.any_map, List.any_eq_false]
      intro x hx
      simp [(isUrlSafe_symbolByte (hlt x hx)).1]
    simp only [binaryLexical, htext, hunpadded, hlength, hsafe]
    rw [if_neg (by simpa using hle)]
    exact (completes_map hlt hle).mpr ⟨hcanonical, hpad⟩

/-- The texts accepted are the URL-safe encodings of byte strings, without pad characters or with
all of them. -/
theorem binaryLexical_iff_encoded (value : String) : binaryLexical value = true ↔
    ∃ bs, value = encodeUrlSafe bs ∨ value = encodeUrlSafe bs ++ padding bs := by
  rw [binaryLexical_iff]
  constructor
  · rintro ⟨xs, pads, hlt, hcanonical, hle, hpad, htext⟩
    have hxs := sextets_bytes hlt hcanonical
    refine ⟨bytes xs, hpad.imp ?_ ?_⟩
    · rintro rfl
      rw [← utf8_inj, utf8_encodeUrlSafe, hxs, htext, List.replicate_zero, List.append_nil]
    · intro hgroups
      obtain ⟨hlength, hpads⟩ := length_sextets (bytes xs)
      rw [hxs] at hlength
      obtain rfl : pads = padLength (bytes xs) := by omega
      rw [← utf8_inj, utf8_append, utf8_encodeUrlSafe, utf8_padding, hxs, htext]
  · rintro ⟨bs, rfl | rfl⟩
    · refine ⟨sextets bs, 0, sextets_lt, canonical_sextets bs, by omega, .inl rfl, ?_⟩
      rw [utf8_encodeUrlSafe, List.replicate_zero, List.append_nil]
    · obtain ⟨hlength, hpads⟩ := length_sextets bs
      refine ⟨sextets bs, padLength bs, sextets_lt, canonical_sextets bs, hpads, .inr hlength, ?_⟩
      rw [utf8_append, utf8_encodeUrlSafe, utf8_padding]

end Temper.Server
