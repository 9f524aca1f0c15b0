import Mathlib
import Temper.EntityActor.ReferenceContract
import Temper.Lib.Delimited

/-!
# The declared-key index

A declared key is reduced to one hash of its name and its tagged values. The text that is hashed
joins them with separator characters and no lengths, so whether two keys can be told apart depends
on the characters names and values are written with. This module gives the exact alphabets.
-/

namespace Temper.KeyIndex

open Json EntityActor Delimited

/-- Separates the key name from the values. -/
def unitSep : Char := '\x1f'

/-- Ends the encoded value of one property. -/
def recordSep : Char := '\x1e'

/-- The same JSON type and the same canonical text. -/
def SameScalar : Value → Value → Prop
  | .null, .null => True
  | .bool b, .bool b' => b = b'
  | .number n, .number n' => n.toText = n'.toText
  | .string s, .string s' => s = s'
  | _, _ => False

/-- The texts `serde_json` prints floats with. -/
def isFloatText (text : String) : Bool :=
  text.toList.all fun c => c.isDigit || ['+', '-', '.', 'e'].contains c

/-- A number that prints as a number. -/
def isPrintable : Number → Bool
  | .float text => isFloatText text
  | _ => true

/-- Every character of the text belongs to `A`. -/
def WrittenOver (A : Set Char) (text : String) : Prop := ∀ c ∈ text.toList, c ∈ A

/-- A value whose text, if it is a string, is written over `A`. -/
structure ValueOver (A : Set Char) (v : Value) : Prop where
  string : ∀ s, v = .string s → WrittenOver A s
  number : ∀ n, v = .number n → isPrintable n = true

/-! ### Components -/

/-- The characters of one encoded value: the type tag, then the canonical text. -/
def component : Value → Option (List Char)
  | .null => some ['0']
  | .bool b => some ['B', if b then '1' else '0']
  | .number n => some ('N' :: n.toText.toList)
  | .string s => some ('S' :: s.toList)
  | .array _ | .object _ => none

lemma component_eq (v : Value) : (canonicalValue v).map String.toList = component v := by
  cases v with
  | bool b => cases b <;> rfl
  | _ => simp [canonicalValue, component]

/-- Equal components encode the same scalar. -/
lemma sameScalar_of_component {v v' : Value} {w : List Char} (h : component v = some w)
    (h' : component v' = some w) : SameScalar v v' := by
  have heq : component v = component v' := h.trans h'.symm
  have hsome : (component v').isSome = true := by rw [h', Option.isSome_some]
  clear h h'
  cases v <;> cases v' <;> simp_all [component, SameScalar, String.toList_inj]
  split_ifs at heq <;> simp_all

lemma component_eq_of_sameScalar {v v' : Value} (h : SameScalar v v') :
    component v = component v' := by
  cases v <;> cases v' <;> simp_all [component, SameScalar]

lemma isDigit_of_mem_toText {n : Number} (h : isPrintable n = true) {c : Char}
    (hc : c ∈ n.toText.toList) : c.isDigit = true ∨ c ∈ ['+', '-', '.', 'e'] := by
  cases n with
  | posInt n =>
    left
    simp only [Number.toText, Nat.toString_eq_ofList_toDigits, String.toList_ofList] at hc
    exact Nat.isDigit_of_mem_toDigits (by decide) (by decide) hc
  | negInt n =>
    simp only [Number.toText, Nat.toString_eq_ofList_toDigits, String.toList_append,
      String.toList_ofList, List.mem_append] at hc
    rcases hc with hc | hc
    · right
      have hminus : c = '-' := by simpa using hc
      simp [hminus]
    · exact .inl (Nat.isDigit_of_mem_toDigits (by decide) (by decide) hc)
  | float text =>
    simp only [isPrintable, isFloatText, List.all_eq_true] at h
    simpa using h c hc

/-- A component holds a separator only inside a string. -/
lemma notMem_component {A : Set Char} {v : Value} (hv : ValueOver A v) {w : List Char}
    (h : component v = some w) {c : Char} (hc : c = unitSep ∨ c = recordSep) (hA : c ∉ A) :
    c ∉ w := by
  have hfixed : c ∉ ['0', '1', 'B', 'N', 'S'] := by
    rcases hc with rfl | rfl <;> decide
  cases v with
  | null =>
    obtain rfl : ['0'] = w := by simpa [component] using h
    exact fun hmem => hfixed (by simp_all)
  | bool b =>
    obtain rfl : ['B', if b then '1' else '0'] = w := by simpa [component] using h
    exact fun hmem => hfixed (by cases b <;> simp_all)
  | number n =>
    obtain rfl : 'N' :: n.toText.toList = w := by simpa [component] using h
    rw [List.mem_cons, not_or]
    refine ⟨fun heq => hfixed (by simp [heq]), fun hmem => ?_⟩
    rcases isDigit_of_mem_toText (hv.number n rfl) hmem with hdigit | hsign
    · rcases hc with rfl | rfl <;> exact absurd hdigit (by decide)
    · rcases hc with rfl | rfl <;> exact absurd hsign (by decide)
  | string s =>
    obtain rfl : 'S' :: s.toList = w := by simpa [component] using h
    rw [List.mem_cons, not_or]
    exact ⟨fun heq => hfixed (by simp [heq]), fun hmem => hA (hv.string s rfl c hmem)⟩
  | array vs => simp [component] at h
  | object m => simp [component] at h

/-! ### The hashed text -/

section

variable [Host]

/-- The value a key reads at a property; an absent field counts as null. -/
def keyValue (fields : Members) (prop : String) : Value := (lookupField fields prop).getD .null

/-- The encoded value at a property, if it is a scalar. -/
def encoded (fields : Members) (prop : String) : List Char :=
  (component (keyValue fields prop)).getD []

omit [Host] in
private lemma mapM_eq_some_iff {α β : Type} [Inhabited β] {f : α → Option β} {xs : List α}
    {ys : List β} :
    xs.mapM f = some ys ↔ (∀ x ∈ xs, (f x).isSome = true) ∧ xs.map (fun x => (f x).getD default) = ys := by
  induction xs generalizing ys with
  | nil => simp
  | cons x xs ih =>
    cases hx : f x with
    | none => simp [hx]
    | some y =>
      have hcons : (x :: xs).mapM f = (xs.mapM f).map (y :: ·) := by
        simp [hx, Option.map_eq_bind]
      rw [hcons, Option.map_eq_some_iff]
      simp [hx, ih, and_assoc]

omit [Host] in
private lemma toList_join (parts : List String) :
    (String.join (parts.map (· ++ "\x1e"))).toList = terminate recordSep (parts.map String.toList) := by
  induction parts with
  | nil => rfl
  | cons p parts ih =>
    rw [List.map_cons, String.join_cons, String.toList_append, ih, List.map_cons, terminate_cons,
      String.toList_append, List.append_assoc]
    rfl

/-- The text that is hashed. -/
def keyText (keyName : String) (ws : List (List Char)) : List Char :=
  keyName.toList ++ unitSep :: terminate recordSep ws

/-- Every property holds a scalar, and one of them a value. -/
structure Indexable (props : List String) (fields : Members) : Prop where
  scalar : ∀ prop ∈ props, component (keyValue fields prop) = some (encoded fields prop)
  present : ∃ prop ∈ props, (lookupField fields prop).any (!·.isNull) = true

/-- A key has a hash when it is indexable, and what the hash is. -/
lemma canonicalKeyHash_eq_some_iff {keyName : String} {props : List String} {fields : Members}
    {hash : String} :
    canonicalKeyHash keyName props fields = some hash ↔ Indexable props fields ∧
      Host.sha256Hex (String.ofList (keyText keyName (props.map (encoded fields)))) = hash := by
  have htext : ∀ parts : List String, keyName ++ "\x1f" ++ String.join (parts.map (· ++ "\x1e")) =
      String.ofList (keyText keyName (parts.map String.toList)) := by
    intro parts
    rw [String.ext_iff, String.toList_append, String.toList_append, toList_join, keyText,
      String.toList_ofList, List.append_assoc]
    simp [unitSep]
  have hencoded : ∀ prop, ((canonicalValue (keyValue fields prop)).getD default).toList =
      encoded fields prop := by
    intro prop
    rw [encoded, ← component_eq]
    cases canonicalValue (keyValue fields prop) <;> rfl
  have hscalar : ∀ prop, (canonicalValue (keyValue fields prop)).isSome = true ↔
      component (keyValue fields prop) = some (encoded fields prop) := by
    intro prop
    rw [encoded, ← component_eq]
    cases canonicalValue (keyValue fields prop) <;> simp
  cases props with
  | nil =>
    have hnot : ¬ Indexable [] fields := fun h => by simpa using h.present
    simp [canonicalKeyHash, hnot]
  | cons prop props =>
    have hhash : canonicalKeyHash keyName (prop :: props) fields =
        ((prop :: props).mapM fun prop => canonicalValue (keyValue fields prop)).bind fun parts =>
          if (prop :: props).any fun prop => (lookupField fields prop).any (!·.isNull) then
            some (Host.sha256Hex (String.ofList (keyText keyName (parts.map String.toList))))
          else none := by
      simp only [canonicalKeyHash, htext]
      rfl
    rw [hhash, Option.bind_eq_some_iff]
    simp only [mapM_eq_some_iff, hscalar]
    constructor
    · rintro ⟨parts, ⟨hall, rfl⟩, hif⟩
      split_ifs at hif with hany
      refine ⟨⟨hall, List.any_eq_true.mp hany⟩, ?_⟩
      rw [← Option.some.inj hif, List.map_map]
      simp only [Function.comp_def, hencoded]
    · rintro ⟨⟨hall, hany⟩, rfl⟩
      refine ⟨_, ⟨hall, rfl⟩, ?_⟩
      rw [if_pos (List.any_eq_true.mpr hany), List.map_map]
      simp only [Function.comp_def, hencoded]

/-! ### Telling keys apart -/

/-- A key whose name and strings are written over `A`. -/
structure KeyOver (A : Set Char) (keyName : String) (props : List String) (fields : Members) :
    Prop where
  name : WrittenOver A keyName
  values : ∀ prop ∈ props, ValueOver A (keyValue fields prop)

/-- Keys over `A` with equal hashes have the same name and hold the same values. -/
def ToldApart (props : List String) (A : Set Char) : Prop :=
  ∀ (name name' : String) (fields fields' : Members) (hash : String),
    KeyOver A name props fields → KeyOver A name' props fields' →
    canonicalKeyHash name props fields = some hash →
    canonicalKeyHash name' props fields' = some hash →
    name = name' ∧ ∀ prop ∈ props, SameScalar (keyValue fields prop) (keyValue fields' prop)

/-- The alphabets in which no text imitates a boundary between components. -/
structure Unambiguous (props : List String) (A : Set Char) : Prop where
  record : recordSep ∈ A → ∀ p ∈ props, ∀ q ∈ props, p = q
  unit : unitSep ∈ A → recordSep ∉ A ∧ ∃ p rest, props = p :: rest ∧ p ∈ rest

section

variable {A : Set Char} {props : List String} {name name' : String} {fields fields' : Members}

lemma KeyOver.notMem_encoded (h : KeyOver A name props fields) (hscalar : Indexable props fields)
    {prop : String} (hprop : prop ∈ props) {c : Char} (hc : c = unitSep ∨ c = recordSep)
    (hA : c ∉ A) : c ∉ encoded fields prop :=
  notMem_component (h.values prop hprop) (hscalar.scalar prop hprop) hc hA

/-- Without record separators the components are read back. -/
lemma encoded_eq_of_record_free (h : KeyOver A name props fields)
    (h' : KeyOver A name' props fields') (hi : Indexable props fields) (hi' : Indexable props fields')
    (hA : recordSep ∉ A)
    (heq : terminate recordSep (props.map (encoded fields)) =
      terminate recordSep (props.map (encoded fields'))) :
    props.map (encoded fields) = props.map (encoded fields') := by
  refine eq_of_terminate_eq ?_ heq
  rw [List.forall₂_map_left_iff, List.forall₂_map_right_iff, List.forall₂_same]
  intro prop hprop
  exact .inr ⟨h.notMem_encoded hi hprop (.inr rfl) hA, h'.notMem_encoded hi' hprop (.inr rfl) hA⟩

/-- With one property only, the components have the same length. -/
lemma encoded_eq_of_constant (hne : props ≠ []) (hconst : ∀ p ∈ props, ∀ q ∈ props, p = q)
    (heq : terminate recordSep (props.map (encoded fields)) =
      terminate recordSep (props.map (encoded fields'))) :
    props.map (encoded fields) = props.map (encoded fields') := by
  obtain ⟨p, rest, rfl⟩ := List.exists_cons_of_ne_nil hne
  have hrest : ∀ q ∈ rest, q = p := fun q hq => hconst q (by simp [hq]) p (by simp)
  have hmap : ∀ f : Members, (p :: rest).map (encoded f) =
      List.replicate (rest.length + 1) (encoded f p) := by
    intro f
    rw [List.eq_replicate_iff]
    refine ⟨by simp, ?_⟩
    intro w hw
    obtain ⟨q, hq, rfl⟩ := List.mem_map.mp hw
    rw [hconst q hq p (by simp)]
  rw [hmap, hmap] at heq ⊢
  have hlen : (encoded fields p).length = (encoded fields' p).length := by
    have hlength := congrArg List.length heq
    simp only [terminate_replicate, List.length_flatten, List.map_replicate, List.sum_replicate,
      List.length_append, List.length_singleton, smul_eq_mul] at hlength
    have := Nat.eq_of_mul_eq_mul_left (Nat.succ_pos _) hlength
    omega
  rw [List.replicate_succ, List.replicate_succ, terminate_cons, terminate_cons] at heq
  rw [(List.append_inj heq hlen).1]

lemma sameScalar_of_encoded_eq (hi : Indexable props fields) (hi' : Indexable props fields')
    (heq : props.map (encoded fields) = props.map (encoded fields')) :
    ∀ prop ∈ props, SameScalar (keyValue fields prop) (keyValue fields' prop) := by
  intro prop hprop
  have hw : encoded fields prop = encoded fields' prop := List.map_inj_left.mp heq prop hprop
  exact sameScalar_of_component (hi.scalar prop hprop) (hw ▸ hi'.scalar prop hprop)

/-- Over such an alphabet keys are told apart. -/
lemma Unambiguous.toldApart (hsha : Function.Injective Host.sha256Hex) (hne : props ≠ [])
    (hA : Unambiguous props A) : ToldApart props A := by
  intro name name' fields fields' hash h h' hhash hhash'
  obtain ⟨hi, rfl⟩ := canonicalKeyHash_eq_some_iff.mp hhash
  obtain ⟨hi', heq⟩ := canonicalKeyHash_eq_some_iff.mp hhash'
  have htext : keyText name' (props.map (encoded fields')) =
      keyText name (props.map (encoded fields)) := String.ofList_injective (hsha heq)
  rw [keyText, keyText] at htext
  by_cases hunit : unitSep ∈ A
  · -- the first property is listed again, and its second component settles the first
    obtain ⟨hrecord, p, rest, rfl, hp⟩ := hA.unit hunit
    have hfirst := h.notMem_encoded hi (List.mem_cons_self (a := p)) (.inr rfl) hrecord
    have hfirst' := h'.notMem_encoded hi' (List.mem_cons_self (a := p)) (.inr rfl) hrecord
    have hmerge : ∀ (n : String) (f : Members),
        n.toList ++ unitSep :: terminate recordSep ((p :: rest).map (encoded f)) =
          terminate recordSep ((n.toList ++ unitSep :: encoded f p) :: rest.map (encoded f)) := by
      simp
    have hsep : recordSep ≠ unitSep := by decide
    rw [hmerge, hmerge] at htext
    have hwords := eq_of_terminate_eq (.cons (.inr ⟨?_, ?_⟩) ?_) htext
    · rw [List.cons.injEq] at hwords
      have hp' : encoded fields' p = encoded fields p := List.map_inj_left.mp hwords.2 p hp
      have hname := hwords.1
      rw [hp', List.append_cancel_right_eq, String.toList_inj] at hname
      refine ⟨hname.symm, sameScalar_of_encoded_eq hi hi' ?_⟩
      rw [List.map_cons, List.map_cons, hp', hwords.2]
    · have hname : recordSep ∉ name'.toList := fun hmem => hrecord (h'.name _ hmem)
      simp [hname, hfirst', hsep]
    · have hname : recordSep ∉ name.toList := fun hmem => hrecord (h.name _ hmem)
      simp [hname, hfirst, hsep]
    · rw [List.forall₂_map_left_iff, List.forall₂_map_right_iff, List.forall₂_same]
      intro q hq
      exact .inr ⟨h'.notMem_encoded hi' (List.mem_cons_of_mem _ hq) (.inr rfl) hrecord,
        h.notMem_encoded hi (List.mem_cons_of_mem _ hq) (.inr rfl) hrecord⟩
  · obtain ⟨hname, htext⟩ := eq_of_append_cons_eq (fun hmem => hunit (h'.name _ hmem))
      (fun hmem => hunit (h.name _ hmem)) htext
    refine ⟨String.toList_inj.mp hname.symm, sameScalar_of_encoded_eq hi hi' ?_⟩
    by_cases hrecord : recordSep ∈ A
    · exact encoded_eq_of_constant hne (hA.record hrecord) htext.symm
    · exact encoded_eq_of_record_free h h' hi hi' hrecord htext.symm

/-! ### Confusing keys -/

/-- The fields that bind every property to a text. -/
def texts (props : List String) (f : String → String) : Members :=
  props.map fun prop => (prop, .string (f prop))

lemma keyValue_texts (f : String → String) {prop : String} (hprop : prop ∈ props) :
    lookupField (texts props f) prop = some (.string (f prop)) := by
  have hget : IndexMap.get (texts props f) prop = some (.string (f prop)) := by
    induction props with
    | nil => simp at hprop
    | cons q props ih =>
      rw [texts, List.map_cons, IndexMap.get_cons]
      by_cases hq : q = prop
      · rw [if_pos hq, hq]
      · rw [if_neg hq]
        exact ih (by simpa [Ne.symm hq] using hprop)
  rw [lookupField, hget, Option.some_or, Option.some_or]

/-- The characters of the components of text fields. -/
def textWords (props : List String) (f : String → String) : List (List Char) :=
  props.map fun prop => 'S' :: (f prop).toList

/-- If keys are told apart, texts that hash alike are the same. -/
lemma ToldApart.eq_of_texts (h : ToldApart props A) (hne : props ≠ []) (name name' : String)
    (f f' : String → String) (hname : WrittenOver A name) (hname' : WrittenOver A name')
    (hf : ∀ prop ∈ props, WrittenOver A (f prop)) (hf' : ∀ prop ∈ props, WrittenOver A (f' prop))
    (heq : keyText name (textWords props f) = keyText name' (textWords props f')) :
    name = name' ∧ ∀ prop ∈ props, f prop = f' prop := by
  have hvalue : ∀ (f : String → String), ∀ prop ∈ props,
      keyValue (texts props f) prop = .string (f prop) := by
    intro f prop hprop
    rw [keyValue, keyValue_texts f hprop, Option.getD_some]
  have hencoded : ∀ f : String → String, props.map (encoded (texts props f)) = textWords props f := by
    intro f
    refine List.map_congr_left fun prop hprop => ?_
    rw [encoded, hvalue f prop hprop, component, Option.getD_some]
  have hindexable : ∀ f : String → String, Indexable props (texts props f) := by
    intro f
    obtain ⟨p, rest, rfl⟩ := List.exists_cons_of_ne_nil hne
    refine ⟨?_, p, List.mem_cons_self, ?_⟩
    · intro prop hprop
      rw [encoded, hvalue f prop hprop, component, Option.getD_some]
    · rw [keyValue_texts f List.mem_cons_self]
      rfl
  have hover : ∀ (n : String) (f : String → String), WrittenOver A n →
      (∀ prop ∈ props, WrittenOver A (f prop)) → KeyOver A n props (texts props f) := by
    intro n f hn hf
    refine ⟨hn, fun prop hprop => ?_⟩
    rw [hvalue f prop hprop]
    exact ⟨fun s hs => (Value.string.inj hs) ▸ hf prop hprop, fun n hn => by simp at hn⟩
  obtain ⟨hnames, hvalues⟩ := h name name' (texts props f) (texts props f') _
    (hover name f hname hf) (hover name' f' hname' hf')
    (canonicalKeyHash_eq_some_iff.mpr ⟨hindexable f, rfl⟩)
    (canonicalKeyHash_eq_some_iff.mpr ⟨hindexable f', by rw [hencoded, hencoded, heq]⟩)
  refine ⟨hnames, fun prop hprop => ?_⟩
  have hsame := hvalues prop hprop
  rwa [hvalue f prop hprop, hvalue f' prop hprop] at hsame

/-- A text that reads as `k` further components when it stands inside one. -/
def nested (k : Nat) : String := String.ofList (List.replicate k [recordSep, 'S']).flatten

omit [Host] in
lemma nested_toList (k : Nat) :
    'S' :: (nested k).toList ++ [recordSep] = (List.replicate (k + 1) ['S', recordSep]).flatten := by
  rw [nested, String.toList_ofList]
  induction k with
  | zero => rfl
  | succ k ih =>
    rw [List.replicate_succ, List.flatten_cons, List.replicate_succ (n := k + 1), List.flatten_cons,
      ← ih]
    rfl

omit [Host] in
lemma nested_over (hS : 'S' ∈ A) (hrecord : recordSep ∈ A) (k : Nat) : WrittenOver A (nested k) := by
  intro c hc
  rw [nested, String.toList_ofList, List.mem_flatten] at hc
  obtain ⟨w, hw, hcw⟩ := hc
  rw [List.eq_of_mem_replicate hw] at hcw
  rcases List.mem_pair.mp hcw with rfl | rfl
  · exact hrecord
  · exact hS

omit [Host] in
/-- Only the number of components is left of such texts. -/
lemma terminate_nested (k : String → Nat) :
    terminate recordSep (textWords props fun prop => nested (k prop)) =
      (List.replicate (props.map fun prop => k prop + 1).sum ['S', recordSep]).flatten := by
  induction props with
  | nil => rfl
  | cons p props ih =>
    have hword : textWords (p :: props) (fun prop => nested (k prop)) =
        ('S' :: (nested (k p)).toList) :: textWords props fun prop => nested (k prop) := rfl
    rw [hword, terminate_cons, ih, List.map_cons, List.sum_cons, List.replicate_add,
      List.flatten_append, ← nested_toList]
    simp

omit [Host] in
private lemma sum_ite (p : String) (a b : Nat) :
    (props.map fun prop => (if prop = p then a else b) + 1).sum =
      a * props.countP (· = p) + b * props.countP (· ≠ p) + props.length := by
  induction props with
  | nil => simp
  | cons q props ih =>
    rw [List.map_cons, List.sum_cons, ih, List.countP_cons, List.countP_cons]
    by_cases hq : q = p
    · simp [hq]
      ring
    · simp [hq]
      ring

/-- A record separator confuses two properties. -/
lemma ToldApart.constant (h : ToldApart props A) (hS : 'S' ∈ A) (hrecord : recordSep ∈ A)
    {p q : String} (hp : p ∈ props) (hq : q ∈ props) : p = q := by
  by_contra hpq
  set others := props.countP (· ≠ p) with hothers
  set own := props.countP (· = p) with hown
  have hne : props ≠ [] := List.ne_nil_of_mem hp
  have hsum : others * own + 0 * others + props.length = 0 * own + own * others + props.length := by
    ring
  obtain ⟨-, hvalues⟩ := h.eq_of_texts hne "" "" (fun prop => nested (if prop = p then others else 0))
    (fun prop => nested (if prop = p then 0 else own)) (by simp [WrittenOver])
    (by simp [WrittenOver]) (fun prop _ => nested_over hS hrecord _)
    (fun prop _ => nested_over hS hrecord _) (by
      rw [keyText, keyText, terminate_nested, terminate_nested, sum_ite, sum_ite, ← hothers, ← hown,
        hsum])
  have hcount : 0 < others := List.countP_pos_iff.mpr ⟨q, hq, by simpa using Ne.symm hpq⟩
  have hlength := congrArg (fun s => s.toList.length) (hvalues p hp)
  simp [nested] at hlength
  omega

/-- A unit separator confuses the key name, unless the first property is listed again. -/
lemma ToldApart.repeated (h : ToldApart props A) (hne : props ≠ []) (hS : 'S' ∈ A)
    (hunit : unitSep ∈ A) : ∃ p rest, props = p :: rest ∧ p ∈ rest := by
  obtain ⟨p, rest, rfl⟩ := List.exists_cons_of_ne_nil hne
  refine ⟨p, rest, rfl, ?_⟩
  by_contra hp
  have hshort : WrittenOver A (String.ofList [unitSep, 'S']) := by
    intro c hc
    rw [String.toList_ofList] at hc
    rcases List.mem_pair.mp hc with rfl | rfl
    · exact hunit
    · exact hS
  have hrest : textWords rest (fun prop => if prop = p then String.ofList [unitSep, 'S'] else "") =
      textWords rest fun _ => "" := by
    refine List.map_congr_left fun prop hprop => ?_
    have hne : prop ≠ p := fun heq => hp (heq ▸ hprop)
    simp only [if_neg hne]
  have hempty : WrittenOver A "" := by simp [WrittenOver]
  obtain ⟨hname, -⟩ := h.eq_of_texts hne "" (String.ofList [unitSep, 'S'])
    (fun prop => if prop = p then String.ofList [unitSep, 'S'] else "") (fun _ => "")
    hempty hshort (fun prop _ => by split_ifs <;> assumption) (fun _ _ => hempty) (by
      have hcons : ∀ f : String → String, textWords (p :: rest) f =
          ('S' :: (f p).toList) :: textWords rest f := fun f => rfl
      rw [keyText, keyText, hcons, hcons, hrest]
      simp)
  exact absurd hname (by decide)

/-- With both separators the key name is confused in any case. -/
lemma ToldApart.not_both (h : ToldApart props A) (hne : props ≠ []) (hS : 'S' ∈ A)
    (hunit : unitSep ∈ A) : recordSep ∉ A := by
  intro hrecord
  obtain ⟨n, hn⟩ : ∃ n, props.length = n + 1 := Nat.exists_eq_succ_of_ne_zero (by simpa using hne)
  -- every value is a unit separator and what is left of as many empty components
  let word : List Char := unitSep :: 'S' :: (nested n).toList
  let block : List Char := 'S' :: word ++ [recordSep]
  let longName : List Char := unitSep :: (List.replicate n block).flatten ++ ['S']
  have hempty : WrittenOver A "" := by simp [WrittenOver]
  have hword : ∀ c ∈ word, c ∈ A := by
    intro c hc
    rcases List.mem_cons.mp hc with rfl | hc
    · exact hunit
    rcases List.mem_cons.mp hc with rfl | hc
    · exact hS
    · exact nested_over hS hrecord n c hc
  have hblock : ∀ c ∈ block, c ∈ A := by
    intro c hc
    rcases List.mem_append.mp hc with hc | hc
    · rcases List.mem_cons.mp hc with rfl | hc
      · exact hS
      · exact hword c hc
    · rw [List.mem_singleton.mp hc]
      exact hrecord
  have hlong : ∀ c ∈ longName, c ∈ A := by
    intro c hc
    rcases List.mem_append.mp hc with hc | hc
    · rcases List.mem_cons.mp hc with rfl | hc
      · exact hunit
      · obtain ⟨w, hw, hcw⟩ := List.mem_flatten.mp hc
        rw [List.eq_of_mem_replicate hw] at hcw
        exact hblock c hcw
    · rw [List.mem_singleton.mp hc]
      exact hS
  have hconst : ∀ w : List Char, textWords props (fun _ => String.ofList w) =
      List.replicate (n + 1) ('S' :: w) := by
    intro w
    rw [textWords, List.map_const', hn, String.toList_ofList]
  have hcomponents : block = 'S' :: unitSep :: (List.replicate (n + 1) ['S', recordSep]).flatten := by
    rw [← nested_toList]
    rfl
  obtain ⟨hname, -⟩ := h.eq_of_texts hne "" (String.ofList longName) (fun _ => String.ofList word)
    (fun _ => String.ofList []) hempty (by simpa [WrittenOver] using hlong)
    (fun _ _ => by simpa [WrittenOver] using hword) (fun _ _ => hempty) (by
      rw [keyText, keyText, hconst, hconst, terminate_replicate, terminate_replicate,
        List.replicate_succ', List.flatten_append, List.flatten_singleton, String.toList_ofList]
      have hlast : 'S' :: word ++ [recordSep] = block := rfl
      rw [hlast]
      nth_rewrite 2 [hcomponents]
      simp [longName])
  have hlength := congrArg (fun s => s.toList.length) hname
  simp [longName] at hlength

end

/-- Keys over an alphabet with the string tag are told apart exactly when the alphabet has no unit
separator, and no record separator unless the key has one property only. (A unit separator does no
harm where the first property is listed again.) -/
theorem key_hashes_told_apart_iff (hsha : Function.Injective Host.sha256Hex) {props : List String}
    (hne : props ≠ []) {A : Set Char} (hS : 'S' ∈ A) : ToldApart props A ↔ Unambiguous props A := by
  constructor
  · intro h
    refine ⟨fun hrecord p hp q hq => h.constant hS hrecord hp hq, fun hunit => ?_⟩
    exact ⟨h.not_both hne hS hunit, h.repeated hne hS hunit⟩
  · exact Unambiguous.toldApart hsha hne

end

section

attribute [local instance] Host.ascii

/-- Paths without control characters identify a file of a workspace. -/
theorem path_keys_told_apart :
    ToldApart ["WorkspaceId", "Path"] {c | c ≠ unitSep ∧ c ≠ recordSep} := by
  refine (key_hashes_told_apart_iff (fun _ _ h => h) (by decide) ?_).mpr ⟨?_, ?_⟩
  · exact ⟨by decide, by decide⟩
  · exact fun h => absurd rfl h.2
  · exact fun h => absurd rfl h.1

/-- Two files that share a hash: the separator inside one value stands for the one after the
other. -/
theorem path_keys_confused :
    ∃ hash,
      canonicalKeyHash "ws_path" ["WorkspaceId", "Path"]
        [("WorkspaceId", .string "a\x1eSb"), ("Path", .string "c")] = some hash ∧
      canonicalKeyHash "ws_path" ["WorkspaceId", "Path"]
        [("WorkspaceId", .string "a"), ("Path", .string "b\x1eSc")] = some hash ∧
      ¬ SameScalar (.string "a\x1eSb") (.string "a") :=
  ⟨"ws_path\x1fSa\x1eSb\x1eSc\x1e", by decide, by decide, by simp [SameScalar]⟩

end

end Temper.KeyIndex
