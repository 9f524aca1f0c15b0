import Mathlib
import Temper.KeyIndex
import Temper.Odata.FilterSql

/-!
# Keyed reads

A filter that compares exactly the properties of a declared key is answered by one probe of the key
index. The read side hashes the literals of the filter, the write side the stored values, and the
filter itself compares numbers as doubles: the probe finds an entity the filter accepts exactly
when every number is stored with the text the literal has.
-/

namespace Temper.Odata

open Json EntityActor KeyIndex Delimited

section

variable [Host]

/-- The literals by property; a property compared twice keeps the last one. -/
def literalFields (equalityPairs : List (String × Value)) : Members :=
  IndexMap.insertAll [] equalityPairs

/-- Whether as many properties are compared as the key has, and all of the key's. -/
def matchesKey (equalityPairs : List (String × Value)) (key : Jit.DeclaredKey) : Bool :=
  key.properties.length = equalityPairs.length &&
    key.properties.all (IndexMap.containsKey (literalFields equalityPairs))

/-- The first declared key that matches, and the hash of the literals. -/
def resolveQueryToKey (keys : List Jit.DeclaredKey) (equalityPairs : List (String × Value)) :
    Option (String × String) := do
  let key ← keys.find? (matchesKey equalityPairs)
  let hash ← canonicalKeyHash key.name key.properties (literalFields equalityPairs)
  pure (key.name, hash)

/-- With distinct names, the key that is resolved to is the one of that name. -/
lemma resolveQueryToKey_eq_some {keys : List Jit.DeclaredKey} {pairs : List (String × Value)}
    {key : Jit.DeclaredKey} {hash : String} (hnames : (keys.map (·.name)).Nodup) (hkey : key ∈ keys)
    (h : resolveQueryToKey keys pairs = some (key.name, hash)) :
    matchesKey pairs key = true ∧
      canonicalKeyHash key.name key.properties (literalFields pairs) = some hash := by
  rw [resolveQueryToKey] at h
  obtain ⟨key', hfind, hrest⟩ := Option.bind_eq_some_iff.mp h
  obtain ⟨hash', hhash, hpair⟩ := Option.bind_eq_some_iff.mp hrest
  simp only [Option.pure_def, Option.some.injEq, Prod.mk.injEq] at hpair
  obtain ⟨hname, rfl⟩ := hpair
  obtain rfl : key' = key := List.inj_on_of_nodup_map hnames (List.mem_of_find?_eq_some hfind) hkey hname
  exact ⟨List.find?_some hfind, hhash⟩

/-- The properties of the key are stored in `fields` under their declared names: the filter reads
them there, and no alias is in the way. -/
structure StoredAsDeclared (body : Value) (fields : Members) (props : List String) : Prop where
  filter : ∀ prop ∈ props, resolveProperty body prop = IndexMap.get fields prop
  key : ∀ prop ∈ props, lookupField fields prop = IndexMap.get fields prop

end

section

variable [Floats]

/-- Equality as the filter tests it on scalars: numbers by their value as doubles. -/
def LooseEq : Value → Value → Prop
  | .null, .null => True
  | .bool b, .bool b' => b = b'
  | .number n, .number n' => numValue n = numValue n'
  | .string s, .string s' => s = s'
  | _, _ => False

/-- The values a literal is converted to. -/
def isScalar : Value → Bool
  | .array _ | .object _ => false
  | _ => true

omit [Floats] in
lemma isScalar_odataValueToJson (value : ODataValue) : isScalar (odataValueToJson value) = true := by
  cases value with
  | float f => cases f <;> rfl
  | _ => rfl

lemma looseEq_of_compareNullable {stored : Option Value} {v : Value} (hv : isScalar v = true)
    (h : compareNullable stored (some v) .eq = true ∨ compareNullable (some v) stored .eq = true) :
    LooseEq v (stored.getD .null) := by
  cases stored with
  | none => cases v <;> simp_all [compareNullable, Option.filter, Value.isNull, LooseEq, isScalar]
  | some w =>
    cases v <;> cases w <;>
      simp_all [compareNullable, Option.filter, Value.isNull, LooseEq, isScalar, jsonEq, Value.eq,
        eq_comm]

/-- A true conjunction of equalities makes each of them true. -/
lemma looseEq_of_evaluateFilter {filter : FilterExpr} {pairs : List (String × Value)} {body : Value}
    (hpairs : equalityFieldPredicates filter = some pairs)
    (h : evaluateFilter body filter = some true) :
    ∀ b ∈ pairs, LooseEq b.2 ((resolveProperty body b.1).getD .null) := by
  rw [equalityFieldPredicates] at hpairs
  fun_induction collectEqualityFieldPredicates filter generalizing pairs with
  | case1 left right ihl ihr =>
    obtain ⟨l, hl, hrest⟩ := Option.bind_eq_some_iff.mp hpairs
    obtain ⟨r, hr, hpair⟩ := Option.bind_eq_some_iff.mp hrest
    obtain rfl : l ++ r = pairs := by simpa using hpair
    rw [evaluateFilter] at h
    obtain ⟨bl, hbl, hrest⟩ := Option.bind_eq_some_iff.mp h
    obtain ⟨br, hbr, hand⟩ := Option.bind_eq_some_iff.mp hrest
    obtain ⟨rfl, rfl⟩ : bl = true ∧ br = true := by simpa using hand
    intro b hb
    rcases List.mem_append.mp hb with hb | hb
    · exact ihl hl hbl b hb
    · exact ihr hr hbr b hb
  | case2 left right =>
    obtain ⟨⟨name, value⟩, hpair, hrest⟩ := Option.bind_eq_some_iff.mp hpairs
    obtain ⟨json, hjson, hsingle⟩ := Option.bind_eq_some_iff.mp hrest
    obtain rfl : [(name, json)] = pairs := by simpa using hsingle
    have hjson' : json = odataValueToJson value := by
      cases value with
      | float f => cases f <;> simp_all [literalToJson]
      | _ => simp_all [literalToJson]
    intro b hb
    rw [List.mem_singleton.mp hb]
    have hscalar : isScalar json = true := hjson' ▸ isScalar_odataValueToJson value
    refine looseEq_of_compareNullable hscalar ?_
    unfold propertyLiteralPair at hpair
    split at hpair
    · simp_all [evaluateFilter, comparisonOperand]
    · simp_all [evaluateFilter, comparisonOperand]
    · simp at hpair
  | case3 => simp at hpairs

end

section

variable [Host] [Floats]

/-- Every number of the key is stored with the text its literal has. -/
def SameNumberTexts (pairs : List (String × Value)) (fields : Members) (props : List String) : Prop :=
  ∀ prop ∈ props, ∀ n m, IndexMap.get (literalFields pairs) prop = some (.number n) →
    IndexMap.get fields prop = some (.number m) → n.toText = m.toText

/-- The numbers of the key print as numbers, in the filter and in the entity. -/
structure Printable (pairs : List (String × Value)) (fields : Members) (props : List String) :
    Prop where
  literal : ∀ prop ∈ props, ∀ n, IndexMap.get (literalFields pairs) prop = some (.number n) →
    isPrintable n = true
  stored : ∀ prop ∈ props, ∀ n, IndexMap.get fields prop = some (.number n) → isPrintable n = true

variable {key : Jit.DeclaredKey} {pairs : List (String × Value)} {body : Value} {fields : Members}

omit [Floats] in
/-- The read side looks the key's properties up under their names. -/
lemma exists_literal (hmatch : matchesKey pairs key = true) {prop : String}
    (hprop : prop ∈ key.properties) :
    ∃ v, (prop, v) ∈ pairs ∧ IndexMap.get (literalFields pairs) prop = some v ∧
      lookupField (literalFields pairs) prop = some v := by
  rw [matchesKey, Bool.and_eq_true, List.all_eq_true] at hmatch
  have hcontains := hmatch.2 prop hprop
  rw [IndexMap.containsKey, Option.isSome_iff_exists] at hcontains
  obtain ⟨v, hv⟩ := hcontains
  refine ⟨v, ?_, hv, ?_⟩
  · rw [literalFields, IndexMap.get_insertAll, IndexMap.get_nil, Option.or_none] at hv
    simpa using IndexMap.mem_of_get hv
  · rw [lookupField, hv, Option.some_or, Option.some_or]

/-- What the filter accepts is stored loosely equal to the literals. -/
lemma looseEq_keyValue {filter : FilterExpr} (hpairs : equalityFieldPredicates filter = some pairs)
    (hmatch : matchesKey pairs key = true) (hstored : StoredAsDeclared body fields key.properties)
    (heval : evaluateFilter body filter = some true) :
    ∀ prop ∈ key.properties,
      LooseEq (keyValue (literalFields pairs) prop) (keyValue fields prop) := by
  intro prop hprop
  obtain ⟨v, hmem, -, hlookup⟩ := exists_literal hmatch hprop
  have hloose := looseEq_of_evaluateFilter hpairs heval (prop, v) hmem
  rwa [hstored.filter prop hprop, ← hstored.key prop hprop, ← Option.getD_some (a := v) (b := .null),
    ← hlookup] at hloose

omit [Host] in
/-- Loosely equal scalars are the same, or numbers with different texts. -/
lemma LooseEq.sameScalar_or {v w : Value} (h : LooseEq v w) :
    SameScalar v w ∨ ∃ n m, v = .number n ∧ w = .number m := by
  cases v <;> cases w <;> simp_all [LooseEq, SameScalar]

/-- The stored key is indexable when the literals are. -/
lemma indexable_of_looseEq {props : List String} {literals : Members}
    (hloose : ∀ prop ∈ props, LooseEq (keyValue literals prop) (keyValue fields prop))
    (h : Indexable props literals) : Indexable props fields := by
  constructor
  · intro prop hprop
    have hscalar : (component (keyValue fields prop)).isSome = true := by
      have hvalues := hloose prop hprop
      revert hvalues
      cases keyValue fields prop <;> cases keyValue literals prop <;> simp [LooseEq, component]
    obtain ⟨w, hw⟩ := Option.isSome_iff_exists.mp hscalar
    rw [encoded, hw, Option.getD_some]
  · obtain ⟨prop, hprop, hpresent⟩ := h.present
    refine ⟨prop, hprop, ?_⟩
    have hl := hloose prop hprop
    rw [keyValue, keyValue] at hl
    revert hl hpresent
    cases lookupField literals prop with
    | none => simp
    | some v =>
      cases lookupField fields prop with
      | none => cases v <;> simp [LooseEq, Value.isNull]
      | some w => cases v <;> cases w <;> simp [LooseEq, Value.isNull]

omit [Floats] in
lemma keyValue_eq_number {props : List String} {n : Number} {prop : String} (hprop : prop ∈ props)
    (hkey : ∀ prop ∈ props, lookupField fields prop = IndexMap.get fields prop)
    (h : keyValue fields prop = .number n) : IndexMap.get fields prop = some (.number n) := by
  rw [keyValue, hkey prop hprop] at h
  cases hget : IndexMap.get fields prop with
  | none => simp [hget] at h
  | some v => simpa [hget] using h

omit [Floats] in
/-- The characters of a printable number are free of the separator. -/
lemma recordSep_notMem_encoded {prop : String} {n : Number} (hn : isPrintable n = true)
    (h : keyValue fields prop = .number n) : recordSep ∉ encoded fields prop := by
  have hover : ValueOver ∅ (.number n) := by
    refine ⟨fun s hs => by simp at hs, fun m hm => ?_⟩
    rw [← Value.number.inj hm]
    exact hn
  have hcomponent : component (.number n) = some (encoded fields prop) := by
    rw [encoded, h]
    rfl
  exact notMem_component hover hcomponent (.inr rfl) (Set.notMem_empty _)

/-- An accepted entity is found by the hash of the literals exactly when every number of the key is
stored with the text of its literal. -/
theorem keyed_hash_matches_iff (hsha : Function.Injective Host.sha256Hex)
    {keys : List Jit.DeclaredKey} (hnames : (keys.map (·.name)).Nodup) (hkey : key ∈ keys)
    {filter : FilterExpr} (hpairs : equalityFieldPredicates filter = some pairs) {hash : String}
    (hresolved : resolveQueryToKey keys pairs = some (key.name, hash))
    (hstored : StoredAsDeclared body fields key.properties)
    (hprint : Printable pairs fields key.properties)
    (heval : evaluateFilter body filter = some true) :
    canonicalKeyHash key.name key.properties fields = some hash ↔
      SameNumberTexts pairs fields key.properties := by
  obtain ⟨hmatch, hhash⟩ := resolveQueryToKey_eq_some hnames hkey hresolved
  obtain ⟨hliterals, rfl⟩ := canonicalKeyHash_eq_some_iff.mp hhash
  have hloose := looseEq_keyValue hpairs hmatch hstored heval
  have hindexable := indexable_of_looseEq hloose hliterals
  have hliteral : ∀ prop ∈ key.properties, ∀ n, keyValue (literalFields pairs) prop = .number n →
      IndexMap.get (literalFields pairs) prop = some (.number n) := by
    intro prop hprop n hn
    obtain ⟨v, -, hget, hlookup⟩ := exists_literal hmatch hprop
    rw [keyValue, hlookup, Option.getD_some] at hn
    rw [hget, hn]
  rw [canonicalKeyHash_eq_some_iff]
  constructor
  · rintro ⟨-, heq⟩ prop hprop n m hn hm
    have htext := String.ofList_injective (hsha heq)
    rw [keyText, keyText, List.append_cancel_left_eq, List.cons.injEq] at htext
    -- at every property the components are the same, or free of the separator
    have hwords := eq_of_terminate_eq (by
      rw [List.forall₂_map_left_iff, List.forall₂_map_right_iff, List.forall₂_same]
      intro p hp
      rcases (hloose p hp).sameScalar_or with hsame | ⟨n, m, hn, hm⟩
      · left
        rw [encoded, encoded, component_eq_of_sameScalar hsame]
      · right
        refine ⟨recordSep_notMem_encoded ?_ hm, recordSep_notMem_encoded ?_ hn⟩
        · exact hprint.stored p hp m (keyValue_eq_number hp hstored.key hm)
        · exact hprint.literal p hp n (hliteral p hp n hn)) htext.2
    have hword := List.map_inj_left.mp hwords prop hprop
    have hkeyn : keyValue (literalFields pairs) prop = .number n := by
      obtain ⟨v, -, hget, hlookup⟩ := exists_literal hmatch hprop
      rw [keyValue, hlookup, Option.getD_some]
      exact Option.some.inj (hget.symm.trans hn)
    have hkeym : keyValue fields prop = .number m := by
      rw [keyValue, hstored.key prop hprop, hm, Option.getD_some]
    rw [encoded, encoded, hkeyn, hkeym] at hword
    simpa [component, String.toList_inj, eq_comm] using hword
  · intro htexts
    refine ⟨hindexable, ?_⟩
    have hencoded : key.properties.map (encoded fields) =
        key.properties.map (encoded (literalFields pairs)) := by
      refine List.map_congr_left fun prop hprop => ?_
      have hsame : SameScalar (keyValue (literalFields pairs) prop) (keyValue fields prop) := by
        rcases (hloose prop hprop).sameScalar_or with hsame | ⟨n, m, hn, hm⟩
        · exact hsame
        · rw [hn, hm]
          exact htexts prop hprop n m (hliteral prop hprop n hn)
            (keyValue_eq_number hprop hstored.key hm)
      rw [encoded, encoded, component_eq_of_sameScalar hsame]
    rw [hencoded]

end

section

attribute [local instance] Host.ascii Floats.decimal

/-- Lots are keyed by their number. -/
def lotKey : Jit.DeclaredKey := ⟨"lot", ["number"], false⟩

def lotFields (number : Number) : Members := [("number", .number number)]

def lotBody (number : Number) : Value :=
  .object [("entity_id", .string "1"), ("entity_type", .string "Lot"), ("status", .string "Open"),
    ("fields", .object (lotFields number))]

/-- `number eq 5` -/
def lotFilter : FilterExpr := .binaryOp (.property "number") .eq (.literal (.int 5))

lemma lot_stored (number : Number) :
    StoredAsDeclared (lotBody number) (lotFields number) lotKey.properties := by
  constructor <;> intro prop hprop <;> rw [List.mem_singleton.mp hprop] <;> rfl

/-- Lot 5, stored as `5`, is found under the hash of the literal. -/
theorem integer_lot_is_found :
    ∃ hash, resolveQueryToKey [lotKey] [("number", .number (.posInt 5))] = some (lotKey.name, hash) ∧
      canonicalKeyHash lotKey.name lotKey.properties (lotFields (.posInt 5)) = some hash := by
  have hresolved : resolveQueryToKey [lotKey] [("number", .number (.posInt 5))] =
      some (lotKey.name, "lot\x1fN5\x1e") := by decide
  have hpairs : equalityFieldPredicates lotFilter = some [("number", .number (.posInt 5))] := rfl
  have heval : evaluateFilter (lotBody (.posInt 5)) lotFilter = some true := by decide +kernel
  have hprint : Printable [("number", .number (.posInt 5))] (lotFields (.posInt 5))
      lotKey.properties := by
    constructor <;> intro prop hprop n hn <;> rw [List.mem_singleton.mp hprop] at hn <;>
      cases hn <;> rfl
  refine ⟨_, hresolved, (keyed_hash_matches_iff (fun _ _ h => h) (by decide)
    (List.mem_singleton_self lotKey) hpairs hresolved (lot_stored _) hprint heval).mpr ?_⟩
  intro prop hprop n m hn hm
  rw [List.mem_singleton.mp hprop] at hn hm
  cases hn
  cases hm
  rfl

/-- Lot 5, stored as `5.0`, satisfies the filter and is missed. -/
theorem decimal_lot_is_missed :
    equalityFieldPredicates lotFilter = some [("number", .number (.posInt 5))] ∧
      evaluateFilter (lotBody (.float "5.0")) lotFilter = some true ∧
      StoredAsDeclared (lotBody (.float "5.0")) (lotFields (.float "5.0")) lotKey.properties ∧
      ∃ hash,
        resolveQueryToKey [lotKey] [("number", .number (.posInt 5))] = some (lotKey.name, hash) ∧
        canonicalKeyHash lotKey.name lotKey.properties (lotFields (.float "5.0")) ≠ some hash := by
  refine ⟨rfl, by decide +kernel, lot_stored _, "lot\x1fN5\x1e", by decide, by decide⟩

end

end Temper.Odata
