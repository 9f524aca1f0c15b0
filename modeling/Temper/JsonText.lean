import Mathlib
import Temper.Json
import Temper.Spec.Naming

/-!
# The text of a JSON value determines the value

A value is followed in a text by nothing, by a comma or by a closing bracket, and what it is can be
read off its first character. So two texts that begin with printed values begin with the same one.
-/

namespace Temper.Json

/-! ### Numbers -/

/-- The characters a number is printed with. -/
def isNumberChar (c : Char) : Bool := c.isDigit || c ∈ ['+', '-', '.', 'e', 'E']

/-- A float is printed with a point or an exponent, so that it does not look like an integer. -/
def Number.Printed : Number → Prop
  | .posInt _ => True
  | .negInt _ => True
  | .float text => text.toList.all isNumberChar ∧ ∃ c ∈ text.toList, c ∈ ['.', 'e', 'E']

lemma toString_ne_nil (n : Nat) : (toString n).toList ≠ [] := by
  rw [Nat.toString_eq_ofList_toDigits, String.toList_ofList]
  exact Nat.toDigits_ne_nil

namespace Number

lemma Printed.ne_nil {n : Number} (h : n.Printed) : n.toText.toList ≠ [] := by
  cases n with
  | posInt n => exact toString_ne_nil n
  | negInt n => simp [toText]
  | float text =>
    obtain ⟨-, c, hc, -⟩ := h
    exact List.ne_nil_of_mem hc

lemma Printed.isNumberChar {n : Number} (h : n.Printed) :
    ∀ c ∈ n.toText.toList, Json.isNumberChar c := by
  intro c hc
  cases n with
  | posInt n => simp [Json.isNumberChar, Spec.isDigit_of_mem_toString hc]
  | negInt n =>
    simp only [toText, String.toList_append, List.mem_append] at hc
    rcases hc with hc | hc
    · obtain rfl : c = '-' := by simpa using hc
      decide
    · simp [Json.isNumberChar, Spec.isDigit_of_mem_toString hc]
  | float text => exact List.all_eq_true.mp h.1 c hc

lemma toText_float_ne {text : String} (h : (float text).Printed) {digits : List Char} {n : Nat}
    (hdigits : digits = (toString n).toList ∨ digits = '-' :: (toString n).toList) :
    text.toList ≠ digits := by
  rintro rfl
  obtain ⟨-, c, hc, hmark⟩ := h
  have hdigit : c.isDigit ∨ c = '-' := by
    rcases hdigits with heq | heq
    · exact .inl (Spec.isDigit_of_mem_toString (heq ▸ hc))
    · rw [heq, List.mem_cons] at hc
      exact hc.symm.imp_left Spec.isDigit_of_mem_toString
  simp only [List.mem_cons, List.not_mem_nil, or_false] at hmark
  rcases hmark with rfl | rfl | rfl <;> simp at hdigit

lemma toText_inj {m n : Number} (hm : m.Printed) (hn : n.Printed) (h : m.toText = n.toText) :
    m = n := by
  have hneg : ∀ a b : Nat, (toString a).toList ≠ '-' :: (toString b).toList := by
    intro a b heq
    have hminus : '-'.isDigit = true :=
      Spec.isDigit_of_mem_toString (n := a) (by rw [heq]; exact List.mem_cons_self)
    exact absurd hminus (by decide)
  have hnegText : ∀ a : Nat, (negInt a).toText.toList = '-' :: (toString (a + 1)).toList := by
    intro a
    simp [toText]
  have hlist := congrArg String.toList h
  cases m with
  | posInt a =>
    cases n with
    | posInt b => exact congrArg _ (Nat.repr_inj.mp h)
    | negInt b => exact absurd (hlist.trans (hnegText b)) (hneg _ _)
    | float text => exact absurd hlist.symm (toText_float_ne hn (.inl rfl))
  | negInt a =>
    rw [hnegText] at hlist
    cases n with
    | posInt b => exact absurd hlist.symm (hneg _ _)
    | negInt b =>
      rw [hnegText, List.cons.injEq] at hlist
      have hab := Nat.repr_inj.mp (String.toList_inj.mp hlist.2)
      exact congrArg _ (Nat.succ_injective hab)
    | float text => exact absurd hlist.symm (toText_float_ne hn (.inr rfl))
  | float text =>
    cases n with
    | posInt b => exact absurd hlist (toText_float_ne hm (.inl rfl))
    | negInt b => exact absurd (hlist.trans (hnegText b)) (toText_float_ne hm (.inr rfl))
    | float text' => exact congrArg _ h

end Number

/-! ### Strings -/

namespace Value

/-- The characters that a string does not hold as they are. -/
def escapedChars : List Char := (List.range 32).map Char.ofNat ++ ['"', '\\']

variable {c : Char}

lemma mem_escapedChars : c ∈ escapedChars ↔ c.toNat < 32 ∨ c = '"' ∨ c = '\\' := by
  rw [escapedChars, List.mem_append, List.mem_map]
  refine or_congr ⟨?_, fun h => ⟨c.toNat, List.mem_range.mpr h, Char.ofNat_toNat c⟩⟩ (by simp)
  rintro ⟨n, hn, rfl⟩
  have hsmall : ∀ n ∈ List.range 32, (Char.ofNat n).toNat < 32 := by decide
  exact hsmall n hn

lemma escapeChar_of_not_mem (h : c ∉ escapedChars) : escapeChar c = String.singleton c := by
  rw [mem_escapedChars, not_or, not_or] at h
  have hne : ∀ d : Char, d.toNat < 32 → c ≠ d := by
    rintro d hd rfl
    exact h.1 hd
  rw [escapeChar, if_neg h.2.1, if_neg h.2.2, if_neg (hne '\x08' (by decide)),
    if_neg (hne '\x0c' (by decide)), if_neg (hne '\n' (by decide)), if_neg (hne '\r' (by decide)),
    if_neg (hne '\t' (by decide)), if_neg h.1]

lemma escapes_prefixFree : (escapedChars.all fun c => escapedChars.all fun d =>
    !(escapeChar c).toList.isPrefixOf (escapeChar d).toList || c == d) = true := by
  decide +kernel

lemma head_escapes :
    (escapedChars.all fun c => (escapeChar c).toList.head? == some '\\') = true := by
  decide +kernel

/-- No escape begins another one. -/
lemma eq_of_isPrefix_escapes {d : Char} (hc : c ∈ escapedChars) (hd : d ∈ escapedChars)
    (h : (escapeChar c).toList <+: (escapeChar d).toList) : c = d := by
  have hfree := List.all_eq_true.mp (List.all_eq_true.mp escapes_prefixFree c hc) d hd
  rw [List.isPrefixOf_iff_prefix.mpr h] at hfree
  simpa using hfree

variable {r s : List Char}

/-- An escape does not begin with a character that is held as it is. -/
lemma escape_ne_cons {d : Char} (hc : c ∈ escapedChars) (hd : d ∉ escapedChars) :
    (escapeChar c).toList ++ r ≠ (escapeChar d).toList ++ s := by
  have hhead := List.all_eq_true.mp head_escapes c hc
  rw [beq_iff_eq] at hhead
  obtain ⟨rest, hrest⟩ := List.head?_eq_some_iff.mp hhead
  rw [hrest, escapeChar_of_not_mem hd, String.toList_singleton]
  intro heq
  have hslash : '\\' = d := (List.cons.inj heq).1
  exact hd (hslash ▸ mem_escapedChars.mpr (.inr (.inr rfl)))

/-- Texts that begin with a character as a string holds it begin with the same one. -/
lemma escapeChar_cancel {d : Char} (h : (escapeChar c).toList ++ r = (escapeChar d).toList ++ s) :
    c = d ∧ r = s := by
  have hcd : c = d := by
    by_cases hc : c ∈ escapedChars <;> by_cases hd : d ∈ escapedChars
    · rcases List.prefix_or_prefix_of_prefix (List.prefix_append _ r)
        (h ▸ List.prefix_append _ s) with hprefix | hprefix
      · exact eq_of_isPrefix_escapes hc hd hprefix
      · exact (eq_of_isPrefix_escapes hd hc hprefix).symm
    · exact absurd h (escape_ne_cons hc hd)
    · exact absurd h.symm (escape_ne_cons hd hc)
    · rw [escapeChar_of_not_mem hc, escapeChar_of_not_mem hd, String.toList_singleton,
        String.toList_singleton] at h
      exact (List.cons.inj h).1
  subst hcd
  exact ⟨rfl, List.append_cancel_left h⟩

lemma escape_ne_quote (d : Char) : '"' :: r ≠ (escapeChar d).toList ++ s := by
  by_cases hd : d ∈ escapedChars
  · have hhead := List.all_eq_true.mp head_escapes d hd
    rw [beq_iff_eq] at hhead
    obtain ⟨rest, hrest⟩ := List.head?_eq_some_iff.mp hhead
    rw [hrest]
    intro heq
    exact absurd (List.cons.inj heq).1 (by decide)
  · rw [escapeChar_of_not_mem hd, String.toList_singleton]
    intro heq
    have hquote : '"' = d := (List.cons.inj heq).1
    exact hd (hquote ▸ mem_escapedChars.mpr (.inr (.inl rfl)))

lemma body_cancel {xs ys : List Char} (h : xs.flatMap (fun c => (escapeChar c).toList) ++ '"' :: r =
      ys.flatMap (fun c => (escapeChar c).toList) ++ '"' :: s) : xs = ys ∧ r = s := by
  induction xs generalizing ys with
  | nil =>
    cases ys with
    | nil => exact ⟨rfl, (List.cons.inj h).2⟩
    | cons y ys =>
      rw [List.flatMap_cons, List.append_assoc] at h
      exact absurd h (escape_ne_quote y)
  | cons x xs ih =>
    cases ys with
    | nil =>
      rw [List.flatMap_cons, List.append_assoc] at h
      exact absurd h.symm (escape_ne_quote x)
    | cons y ys =>
      rw [List.flatMap_cons, List.flatMap_cons, List.append_assoc, List.append_assoc] at h
      obtain ⟨rfl, hrest⟩ := escapeChar_cancel h
      obtain ⟨rfl, rfl⟩ := ih hrest
      exact ⟨rfl, rfl⟩

lemma toList_quote (s : String) :
    (quote s).toList = '"' :: (s.toList.flatMap (fun c => (escapeChar c).toList) ++ ['"']) := by
  simp only [quote, String.toList_append, String.toList_join, List.flatMap_map]
  rfl

lemma quote_cancel {s t : String} {r' : List Char}
    (h : (quote s).toList ++ r = (quote t).toList ++ r') : s = t ∧ r = r' := by
  simp only [toList_quote, List.cons_append, List.append_assoc, List.nil_append, List.cons.injEq,
    true_and] at h
  obtain ⟨hst, hr⟩ := body_cancel h
  exact ⟨String.toList_inj.mp hst, hr⟩

/-! ### Values -/

mutual

/-- All numbers of a value are printed as numbers. -/
def Printed : Value → Prop
  | .number n => n.Printed
  | .array vs => PrintedItems vs
  | .object m => PrintedMembers m
  | _ => True

def PrintedItems : List Value → Prop
  | [] => True
  | v :: vs => v.Printed ∧ PrintedItems vs

def PrintedMembers : Members → Prop
  | [] => True
  | (_, v) :: m => v.Printed ∧ PrintedMembers m

end

/-- What may follow a value: nothing, a comma or a closing bracket. -/
def Ends : List Char → Prop
  | [] => True
  | c :: _ => c ∈ [',', ']', '\x7d']

/-- The items after the first one, each after a comma. -/
def itemsTail (vs : List Value) : List Char := vs.flatMap fun v => ',' :: v.toText.toList

def memberText (b : String × Value) : List Char :=
  (quote b.1).toList ++ ':' :: b.2.toText.toList

def membersTail (m : Members) : List Char := m.flatMap fun b => ',' :: memberText b

lemma toList_toText_items (v : Value) (vs : List Value) :
    (String.intercalate "," (toTexts (v :: vs))).toList = v.toText.toList ++ itemsTail vs := by
  induction vs generalizing v with
  | nil => simp [toTexts, itemsTail]
  | cons w vs ih =>
    have hw := ih w
    simp only [toTexts, String.intercalate_cons_cons, String.toList_append] at hw ⊢
    rw [hw, itemsTail, itemsTail, List.flatMap_cons, List.append_assoc]
    rfl

lemma toList_toText_members (b : String × Value) (m : Members) :
    (String.intercalate "," (memberTexts (b :: m))).toList = memberText b ++ membersTail m := by
  induction m generalizing b with
  | nil => simp [memberTexts, membersTail, memberText]
  | cons b' m ih =>
    have hb := ih b'
    obtain ⟨k, v⟩ := b
    obtain ⟨k', v'⟩ := b'
    simp only [memberTexts, String.intercalate_cons_cons, String.toList_append] at hb ⊢
    rw [hb, membersTail, membersTail, List.flatMap_cons, memberText]
    simp [memberText]

lemma toList_toText_array (v : Value) (vs : List Value) :
    (array (v :: vs)).toText.toList = '[' :: (v.toText.toList ++ (itemsTail vs ++ [']'])) := by
  rw [toText, String.toList_append, String.toList_append, toList_toText_items]
  simp

lemma toList_toText_object (b : String × Value) (m : Members) :
    (object (b :: m)).toText.toList =
      '\x7b' :: (memberText b ++ (membersTail m ++ ['\x7d'])) := by
  rw [toText, String.toList_append, String.toList_append, toList_toText_members]
  simp

inductive Kind
  | null
  | bool
  | number
  | string
  | array
  | object
deriving DecidableEq

def kind : Value → Kind
  | .null => .null
  | .bool _ => .bool
  | .number _ => .number
  | .string _ => .string
  | .array _ => .array
  | .object _ => .object

/-- The kind of a value whose text begins with this character. -/
def kindOf (c : Char) : Kind :=
  if c = 'n' then .null
  else if c = 't' ∨ c = 'f' then .bool
  else if c = '"' then .string
  else if c = '[' then .array
  else if c = '\x7b' then .object
  else .number

lemma kindOf_of_isNumberChar (h : isNumberChar c) : kindOf c = .number := by
  have hne : ∀ d : Char, isNumberChar d = false → c ≠ d := by
    rintro d hd rfl
    exact absurd h (by simp [hd])
  unfold kindOf
  rw [if_neg (hne _ (by decide)), if_neg (not_or.mpr ⟨hne _ (by decide), hne _ (by decide)⟩),
    if_neg (hne _ (by decide)), if_neg (hne _ (by decide)), if_neg (hne _ (by decide))]

/-- The first character of a value tells its kind and does not close a bracket. -/
lemma exists_head_toText {v : Value} (h : v.Printed) :
    ∃ c rest, v.toText.toList = c :: rest ∧ kindOf c = v.kind ∧ c ≠ ']' := by
  cases v with
  | null => exact ⟨'n', _, rfl, rfl, by decide⟩
  | bool b => cases b <;> exact ⟨_, _, rfl, rfl, by decide⟩
  | number n =>
    cases hn : n.toText.toList with
    | nil => exact absurd hn h.ne_nil
    | cons c rest =>
      have hc : isNumberChar c := h.isNumberChar c (by rw [hn]; exact List.mem_cons_self)
      refine ⟨c, rest, hn, kindOf_of_isNumberChar hc, ?_⟩
      rintro rfl
      exact absurd hc (by decide)
  | string s => exact ⟨'"', _, toList_quote s, rfl, by decide⟩
  | array vs =>
    cases vs with
    | nil => exact ⟨'[', _, rfl, rfl, by decide⟩
    | cons v vs => exact ⟨'[', _, toList_toText_array v vs, rfl, by decide⟩
  | object m =>
    cases m with
    | nil => exact ⟨'\x7b', _, rfl, rfl, by decide⟩
    | cons b m => exact ⟨'\x7b', _, toList_toText_object b m, rfl, by decide⟩

lemma kind_eq {v w : Value} (hv : v.Printed) (hw : w.Printed)
    (h : v.toText.toList ++ r = w.toText.toList ++ s) : v.kind = w.kind := by
  obtain ⟨c, rest, hc, hkind, -⟩ := exists_head_toText hv
  obtain ⟨d, rest', hd, hkind', -⟩ := exists_head_toText hw
  rw [hc, hd, List.cons_append, List.cons_append, List.cons.injEq] at h
  rw [← hkind, ← hkind', h.1]

/-- A value does not begin with a closing bracket. -/
lemma toText_ne_close {v : Value} (hv : v.Printed) : v.toText.toList ++ r ≠ ']' :: s := by
  obtain ⟨c, rest, hc, -, hclose⟩ := exists_head_toText hv
  rw [hc]
  exact fun heq => hclose (List.cons.inj heq).1

lemma number_cancel {m n : Number} (hm : m.Printed) (hn : n.Printed) (hr : Ends r) (hs : Ends s)
    (h : m.toText.toList ++ r = n.toText.toList ++ s) : m = n ∧ r = s := by
  have hstop : ∀ {t : List Char}, Ends t → t.takeWhile isNumberChar = [] := by
    intro t ht
    cases t with
    | nil => rfl
    | cons c t =>
      refine List.takeWhile_cons_of_neg ?_
      simp only [Ends, List.mem_cons, List.not_mem_nil, or_false] at ht
      rcases ht with rfl | rfl | rfl <;> decide
  have htake := congrArg (List.takeWhile isNumberChar) h
  rw [List.takeWhile_append_of_pos hm.isNumberChar, List.takeWhile_append_of_pos hn.isNumberChar,
    hstop hr, hstop hs, List.append_nil, List.append_nil] at htake
  obtain rfl := Number.toText_inj hm hn (String.toList_inj.mp htake)
  exact ⟨rfl, List.append_cancel_left h⟩

lemma ends_itemsTail (vs : List Value) (r : List Char) : Ends (itemsTail vs ++ ']' :: r) := by
  cases vs <;> simp [itemsTail, Ends]

lemma ends_membersTail (m : Members) (r : List Char) : Ends (membersTail m ++ '\x7d' :: r) := by
  cases m <;> simp [membersTail, Ends]

mutual

/-- Texts that begin with printed values begin with the same value. -/
lemma toText_cancel : ∀ {v w : Value} {r s : List Char}, v.Printed → w.Printed → Ends r → Ends s →
    v.toText.toList ++ r = w.toText.toList ++ s → v = w ∧ r = s
  | .null, w, r, s, hv, hw, _, _, h => by
    have hkind := kind_eq hv hw h
    cases w <;> simp only [kind, reduceCtorEq] at hkind
    exact ⟨rfl, List.append_cancel_left h⟩
  | .bool b, w, r, s, hv, hw, _, _, h => by
    have hkind := kind_eq hv hw h
    cases w <;> simp only [kind, reduceCtorEq] at hkind
    rename_i b'
    cases b <;> cases b' <;> simp_all [toText]
  | .number m, w, r, s, hv, hw, hr, hs, h => by
    have hkind := kind_eq hv hw h
    cases w <;> simp only [kind, reduceCtorEq] at hkind
    rename_i n
    obtain ⟨rfl, hrest⟩ := number_cancel (m := m) (n := n) hv hw hr hs h
    exact ⟨rfl, hrest⟩
  | .string t, w, r, s, hv, hw, _, _, h => by
    have hkind := kind_eq hv hw h
    cases w <;> simp only [kind, reduceCtorEq] at hkind
    obtain ⟨rfl, hrest⟩ := quote_cancel h
    exact ⟨rfl, hrest⟩
  | .array [], w, r, s, hv, hw, _, _, h => by
    have hkind := kind_eq hv hw h
    cases w <;> simp only [kind, reduceCtorEq] at hkind
    rename_i ws
    cases ws with
    | nil => exact ⟨rfl, List.append_cancel_left h⟩
    | cons w ws =>
      rw [toList_toText_array, List.cons_append, List.append_assoc] at h
      exact absurd (List.cons.inj h).2.symm (toText_ne_close hw.1)
  | .array (v :: vs), w, r, s, hv, hw, _, _, h => by
    have hkind := kind_eq hv hw h
    cases w <;> simp only [kind, reduceCtorEq] at hkind
    rename_i ws
    cases ws with
    | nil =>
      rw [toList_toText_array, List.cons_append, List.append_assoc] at h
      exact absurd (List.cons.inj h).2 (toText_ne_close hv.1)
    | cons w ws =>
      simp only [toList_toText_array, List.cons_append, List.append_assoc, List.nil_append,
        List.cons.injEq, true_and] at h
      obtain ⟨rfl, hrest⟩ := toText_cancel hv.1 hw.1 (ends_itemsTail vs r) (ends_itemsTail ws s) h
      obtain ⟨rfl, hrs⟩ := itemsTail_cancel hv.2 hw.2 hrest
      exact ⟨rfl, hrs⟩
  | .object [], w, r, s, hv, hw, _, _, h => by
    have hkind := kind_eq hv hw h
    cases w <;> simp only [kind, reduceCtorEq] at hkind
    rename_i m
    cases m with
    | nil => exact ⟨rfl, List.append_cancel_left h⟩
    | cons b m =>
      rw [toList_toText_object, memberText, toList_quote] at h
      simp [toText, memberTexts] at h
  | .object ((k, v) :: m), w, r, s, hv, hw, _, _, h => by
    have hkind := kind_eq hv hw h
    cases w <;> simp only [kind, reduceCtorEq] at hkind
    rename_i m'
    cases m' with
    | nil =>
      rw [toList_toText_object, memberText, toList_quote] at h
      simp [toText, memberTexts] at h
    | cons b m' =>
      obtain ⟨k', v'⟩ := b
      simp only [toList_toText_object, memberText, List.cons_append, List.append_assoc,
        List.nil_append, List.cons.injEq, true_and] at h
      obtain ⟨rfl, hvalue⟩ := quote_cancel h
      obtain ⟨rfl, hrest⟩ := toText_cancel hv.1 hw.1 (ends_membersTail m r)
        (ends_membersTail m' s) (List.cons.inj hvalue).2
      obtain ⟨rfl, hrs⟩ := membersTail_cancel hv.2 hw.2 hrest
      exact ⟨rfl, hrs⟩

lemma itemsTail_cancel : ∀ {vs ws : List Value} {r s : List Char}, PrintedItems vs →
    PrintedItems ws → itemsTail vs ++ ']' :: r = itemsTail ws ++ ']' :: s → vs = ws ∧ r = s
  | [], [], _, _, _, _, h => ⟨rfl, (List.cons.inj h).2⟩
  | [], w :: ws, _, _, _, _, h => by simp [itemsTail] at h
  | v :: vs, [], _, _, _, _, h => by simp [itemsTail] at h
  | v :: vs, w :: ws, r, s, hv, hw, h => by
    simp only [itemsTail, List.flatMap_cons, List.cons_append, List.append_assoc, List.cons.injEq,
      true_and] at h
    obtain ⟨rfl, hrest⟩ := toText_cancel hv.1 hw.1 (ends_itemsTail vs r) (ends_itemsTail ws s) h
    obtain ⟨rfl, hrs⟩ := itemsTail_cancel hv.2 hw.2 hrest
    exact ⟨rfl, hrs⟩

lemma membersTail_cancel : ∀ {m m' : Members} {r s : List Char}, PrintedMembers m →
    PrintedMembers m' → membersTail m ++ '\x7d' :: r = membersTail m' ++ '\x7d' :: s →
      m = m' ∧ r = s
  | [], [], _, _, _, _, h => ⟨rfl, (List.cons.inj h).2⟩
  | [], b :: m', _, _, _, _, h => by simp [membersTail] at h
  | b :: m, [], _, _, _, _, h => by simp [membersTail] at h
  | (k, v) :: m, (k', v') :: m', r, s, hv, hw, h => by
    simp only [membersTail, memberText, List.flatMap_cons, List.cons_append, List.append_assoc,
      List.cons.injEq, true_and] at h
    obtain ⟨rfl, hvalue⟩ := quote_cancel h
    obtain ⟨rfl, hrest⟩ := toText_cancel hv.1 hw.1 (ends_membersTail m r) (ends_membersTail m' s)
      (List.cons.inj hvalue).2
    obtain ⟨rfl, hrs⟩ := membersTail_cancel hv.2 hw.2 hrest
    exact ⟨rfl, hrs⟩

end

/-- Printed values with one text are equal. -/
theorem toText_inj {v w : Value} (hv : v.Printed) (hw : w.Printed) (h : v.toText = w.toText) :
    v = w := by
  refine (toText_cancel (r := []) (s := []) hv hw trivial trivial ?_).1
  rw [List.append_nil, List.append_nil, h]

end Value

end Temper.Json
