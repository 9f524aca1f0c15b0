import Mathlib
import Temper.Lib.IndexMap

/-!
# JSON values and ordered maps

The two containers the runtime is written with: `serde_json::Value`, whose objects keep their
members in insertion order, and `BTreeMap<String, _>`, which is extensional in its bindings.
-/

namespace Temper

/-- `BTreeMap<String, β>`: two maps with the same bindings are equal. -/
abbrev BTreeMap (β : Type) := Std.ExtTreeMap String β compare

namespace BTreeMap

variable {β : Type}

/-- Looking a key up in the list of bindings is looking it up in the map. -/
lemma get_toList_reverse (m : BTreeMap β) (k : String) :
    IndexMap.get m.toList.reverse k = m[k]? := by
  cases hget : IndexMap.get m.toList.reverse k with
  | some v =>
    have hmem : (k, v) ∈ m.toList := by
      simpa using IndexMap.mem_of_get hget
    exact (Std.ExtTreeMap.mem_toList_iff_getElem?_eq_some.mp hmem).symm
  | none =>
    cases hm : m[k]? with
    | none => rfl
    | some v =>
      have hmem : (k, v) ∈ m.toList.reverse := by
        simpa using Std.ExtTreeMap.mem_toList_iff_getElem?_eq_some.mpr hm
      have hsome := IndexMap.get_isSome_of_mem hmem
      rw [hget] at hsome
      exact absurd hsome (by simp)

lemma exists_mem_toList_iff (m : BTreeMap β) (k : String) :
    (∃ v, (k, v) ∈ m.toList) ↔ k ∈ m := by
  rw [Std.ExtTreeMap.mem_iff_isSome_getElem?, Option.isSome_iff_exists]
  exact exists_congr fun v => Std.ExtTreeMap.mem_toList_iff_getElem?_eq_some

/-- Insert every binding of `w` into `m`; the bindings of `w` win. -/
def extend (m w : BTreeMap β) : BTreeMap β := w.toList.foldl (fun m b => m.insert b.1 b.2) m

lemma getElem?_foldl_insert (w : List (String × β)) (m : BTreeMap β) (k : String) :
    (w.foldl (fun m b => m.insert b.1 b.2) m)[k]? = (IndexMap.get w.reverse k).or m[k]? := by
  induction w using List.reverseRecOn with
  | nil => simp
  | append_singleton w b ih =>
    obtain ⟨k₀, v₀⟩ := b
    simp only [List.foldl_append, List.foldl_cons, List.foldl_nil, List.reverse_append,
      List.reverse_cons, List.reverse_nil, List.nil_append, List.cons_append,
      IndexMap.get_cons, Std.ExtTreeMap.getElem?_insert, ih]
    by_cases h : k₀ = k <;> simp [h]

@[simp] lemma getElem?_extend (m w : BTreeMap β) (k : String) :
    (m.extend w)[k]? = w[k]?.or m[k]? := by
  rw [extend, getElem?_foldl_insert, get_toList_reverse]

end BTreeMap

namespace Json

/-- `serde_json::Number`. A negative integer `-(n + 1)` is `negInt n`; a float is kept as the
text it is printed with, which is all the runtime reads of it. -/
inductive Number
  | posInt (n : Nat)
  | negInt (n : Nat)
  | float (text : String)
  deriving DecidableEq, Repr

namespace Number

def toText : Number → String
  | posInt n => toString n
  | negInt n => "-" ++ toString (n + 1)
  | float text => text

/-- `Number::as_u64`. -/
def asU64 : Number → Option Nat
  | posInt n => some n
  | _ => none

/-- `Number::as_i64`: a positive integer fits below `2 ^ 63`. -/
def asI64 : Number → Option Int
  | posInt n => if n < 2 ^ 63 then some n else none
  | negInt n => some (-(n + 1 : Int))
  | float _ => none

end Number

/-- `serde_json::Value`. The members of an object are listed in insertion order. -/
inductive Value
  | null
  | bool (b : Bool)
  | number (n : Number)
  | string (s : String)
  | array (vs : List Value)
  | object (members : List (String × Value))
  deriving Repr

/-- The members of a JSON object. -/
abbrev Members := List (String × Value)

namespace Value

instance : Inhabited Value := ⟨null⟩

def asObject : Value → Option Members
  | object m => some m
  | _ => none

def isObject : Value → Bool
  | object _ => true
  | _ => false

def asStr : Value → Option String
  | string s => some s
  | _ => none

def asBool : Value → Option Bool
  | bool b => some b
  | _ => none

def isNull : Value → Bool
  | null => true
  | _ => false

def asU64 : Value → Option Nat
  | number n => n.asU64
  | _ => none

def asI64 : Value → Option Int
  | number n => n.asI64
  | _ => none

/-- `Value::get`: the member of an object at a key. -/
def get : Value → String → Option Value
  | object m, k => IndexMap.get m k
  | _, _ => none

/-- Update the members of an object; any other value stays as it is. -/
def mapObject (f : Members → Members) : Value → Value
  | object m => object (f m)
  | v => v

@[simp] lemma get_object (m : Members) (k : String) : (object m).get k = IndexMap.get m k := rfl

@[simp] lemma mapObject_object (f : Members → Members) (m : Members) :
    (object m).mapObject f = object (f m) := rfl

/-! ### Serialized text -/

/-- Hexadecimal digit of a control character's escape. -/
private def hexDigit (n : Nat) : Char := if n < 10 then Char.ofNat (48 + n) else Char.ofNat (87 + n)

/-- A character inside a JSON string, as `serde_json` escapes it. -/
def escapeChar (c : Char) : String :=
  if c = '"' then "\\\""
  else if c = '\\' then "\\\\"
  else if c = '\x08' then "\\b"
  else if c = '\x0c' then "\\f"
  else if c = '\n' then "\\n"
  else if c = '\r' then "\\r"
  else if c = '\t' then "\\t"
  else if c.toNat < 32 then
    "\\u00" ++ String.singleton (hexDigit (c.toNat / 16)) ++
      String.singleton (hexDigit (c.toNat % 16))
  else String.singleton c

def quote (s : String) : String := "\"" ++ String.join (s.toList.map escapeChar) ++ "\""

mutual

/-- The compact text `serde_json::to_vec` and `Value::to_string` print. -/
def toText : Value → String
  | null => "null"
  | bool b => if b then "true" else "false"
  | number n => n.toText
  | string s => quote s
  | array vs => "[" ++ String.intercalate "," (toTexts vs) ++ "]"
  | object m => "\x7b" ++ String.intercalate "," (memberTexts m) ++ "\x7d"

def toTexts : List Value → List String
  | [] => []
  | v :: vs => toText v :: toTexts vs

def memberTexts : Members → List String
  | [] => []
  | (k, v) :: m => (quote k ++ ":" ++ toText v) :: memberTexts m

end

/-! ### Equality

`serde_json` compares objects by their bindings, whatever the order of the members.
-/

mutual

def eq : Value → Value → Bool
  | null, null => true
  | bool a, bool b => a == b
  | number a, number b => a == b
  | string a, string b => a == b
  | array as, array bs => eqList as bs
  | object a, object b => a.length == b.length && eqMembers a b
  | _, _ => false

def eqList : List Value → List Value → Bool
  | [], [] => true
  | a :: as, b :: bs => eq a b && eqList as bs
  | _, _ => false

def eqMembers : Members → Members → Bool
  | [], _ => true
  | (k, v) :: m, b => (match IndexMap.get b k with
    | some w => eq v w
    | none => false) && eqMembers m b

end

/-! ### Agreement of objects -/

/-- Two values that read the same: equal, or objects with the same bindings. The order of an
object's members is the only thing two agreeing values may differ in. -/
inductive Agree : Value → Value → Prop
  | refl (v : Value) : Agree v v
  | object {m m' : Members} (h : IndexMap.Agree m m') : Agree (object m) (object m')

namespace Agree

lemma symm {v w : Value} (h : Agree v w) : Agree w v := by
  cases h with
  | refl => exact .refl _
  | object h => exact .object h.symm

lemma trans {u v w : Value} (h : Agree u v) (h' : Agree v w) : Agree u w := by
  cases h with
  | refl => exact h'
  | object h =>
    cases h' with
    | refl => exact .object h
    | object h' => exact .object (h.trans h')

lemma get_eq {v w : Value} (h : Agree v w) (k : String) : v.get k = w.get k := by
  cases h with
  | refl => rfl
  | object h => exact h k

/-- An update of the members that respects agreement keeps two values in agreement. -/
lemma mapObject {v w : Value} (h : Agree v w) {f f' : Members → Members}
    (hf : ∀ m m', IndexMap.Agree m m' → IndexMap.Agree (f m) (f' m')) :
    Agree (v.mapObject f) (w.mapObject f') := by
  cases h with
  | refl v =>
    cases v with
    | object m => exact .object (hf m m (.refl m))
    | _ => exact .refl _
  | object h => exact .object (hf _ _ h)

end Agree

/-- Objects that read the same agree. -/
lemma agree_of_get {v w : Value} (hv : v.isObject = true) (hw : w.isObject = true)
    (h : ∀ k, v.get k = w.get k) : Agree v w := by
  cases v with
  | object m =>
    cases w with
    | object m' => exact .object h
    | _ => simp [isObject] at hw
  | _ => simp [isObject] at hv

end Value

end Json

end Temper
