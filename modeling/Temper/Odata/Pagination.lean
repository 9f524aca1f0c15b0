import Mathlib
import Temper.Lib.Keyset
import Temper.Odata.QueryEval

/-!
# Server-driven paging

A list read that is cut at the page size continues at a cursor over its canonical order: the
`$orderby` clauses and then the entity id. The cursor becomes an ordinary filter that keeps the
rows strictly after it. Sort order, cursor and filter encode one order three times; they agree on
the values that can be compared with each other, and only there.
-/

namespace Temper.Odata

open Json

def idProperty : String := "entity_id"

/-- The caller's clauses, then the entity id unless they end with it. -/
def canonicalPaginationOrder (orderby : Option (List OrderByClause)) : List OrderByClause :=
  let clauses := orderby.getD []
  if clauses.getLast?.all (·.property ≠ idProperty) then clauses ++ [⟨idProperty, .asc⟩] else clauses

/-! ### Cursors -/

/-- The boundary row's value for one clause; absent is not `null`. -/
structure CursorKey where
  present : Bool
  value : Value

def cursorKeyFor (row : Value) (clause : OrderByClause) : CursorKey :=
  match resolveProperty row clause.property with
  | some value => ⟨true, value⟩
  | none => ⟨false, .null⟩

def cursorForRow (row : Value) (order : List OrderByClause) : List CursorKey :=
  order.map (cursorKeyFor row)

/-- Base64 of JSON text, as the token is written and read. -/
class TokenCodec where
  encode : Value → String
  decode : String → Option Value
  decode_encode : ∀ v, decode (encode v) = some v

def keyToValue (key : CursorKey) : Value := .array [.bool key.present, key.value]

def keyFromValue : Value → Option CursorKey
  | .array [.bool present, value] => some ⟨present, value⟩
  | _ => none

section

variable [TokenCodec]

def encodeCursor (cursor : List CursorKey) : String :=
  TokenCodec.encode (.array (cursor.map keyToValue))

def decodeCursor (token : String) : Option (List CursorKey) := do
  let .array entries ← TokenCodec.decode token | none
  let keys ← entries.mapM keyFromValue
  if keys.isEmpty then none else some keys

end

/-! ### The keyset predicate -/

def compareExpr (prop : FilterExpr) (op : BinaryOperator) (literal : FilterExpr) : FilterExpr :=
  .binaryOp prop op literal

def isNullExpr (prop : FilterExpr) : FilterExpr := compareExpr prop .eq (.literal .null)

def isNotNullExpr (prop : FilterExpr) : FilterExpr := compareExpr prop .ne (.literal .null)

def andExpr (left right : FilterExpr) : FilterExpr := .binaryOp left .and right

def orExpr (left right : FilterExpr) : FilterExpr := .binaryOp left .or right

/-- A predicate that is always false and names no property. -/
def literalFalse : FilterExpr := .unaryOp .not (.literal (.boolean true))

section

variable [Floats]

/-- The literal of a boundary value, unless that is composite. -/
def odataLiteral : Value → Option FilterExpr
  | .null => some (.literal .null)
  | .bool b => some (.literal (.boolean b))
  | .string s => some (.literal (.string s))
  | .number n => some (.literal (match n.asI64 with
    | some i => .int i
    | none => .float (.finite (asF64 n))))
  | .array _ | .object _ => none

/-- The value sorts strictly after the boundary: nulls last when ascending, first when
descending. -/
def strictlyAfterAt (clause : OrderByClause) (key : CursorKey) : Option FilterExpr :=
  let prop := FilterExpr.property clause.property
  match clause.direction, key.present with
  | .asc, true => (odataLiteral key.value).map fun literal =>
      orExpr (compareExpr prop .gt literal) (isNullExpr prop)
  | .asc, false => some literalFalse
  | .desc, true => (odataLiteral key.value).map (compareExpr prop .lt)
  | .desc, false => some (isNotNullExpr prop)

def equalAt (clause : OrderByClause) (key : CursorKey) : FilterExpr :=
  let prop := FilterExpr.property clause.property
  if key.present then
    match odataLiteral key.value with
    | some literal => compareExpr prop .eq literal
    | none => literalFalse
  else isNullExpr prop

def keysetFrom : List OrderByClause → List CursorKey → Option FilterExpr
  | clause :: order, key :: keys => do
    let strictlyAfter ← strictlyAfterAt clause key
    let deeper ← keysetFrom order keys
    pure (orExpr strictlyAfter (andExpr (equalAt clause key) deeper))
  | _, _ => some literalFalse

def keysetAfterPredicate (cursor : List CursorKey) (order : List OrderByClause) :
    Option FilterExpr :=
  if cursor.length = order.length then keysetFrom order cursor else none

def andFilter (base : Option FilterExpr) (keyset : FilterExpr) : FilterExpr :=
  match base with
  | some base => andExpr base keyset
  | none => keyset

/-! ### Pages -/

structure Page where
  entities : List Value
  nextSkiptoken : Option String

variable [TokenCodec]

/-- The predicate an incoming token resumes with; `none` for a malformed token. -/
def resumePredicate (order : List OrderByClause) (token : String) : Option FilterExpr :=
  (decodeCursor token).bind fun cursor => keysetAfterPredicate cursor order

/-- One page over a fixed list of entities. One row past the page is fetched to see whether there
is more. -/
def readPage (entities : List Value) (filter : Option FilterExpr)
    (orderby : Option (List OrderByClause)) (pageSize : Nat) (skiptoken : Option String) :
    Option Page := do
  let order := canonicalPaginationOrder orderby
  let filter ← match skiptoken with
    | none => some filter
    | some token => (resumePredicate order token).map fun keyset => some (andFilter filter keyset)
  let options : QueryOptions :=
    { filter := filter
      orderby := orderby.map fun _ => order
      top := some (pageSize + 1) }
  let fetched := (applyQueryOptions entities options).1
  let page := fetched.take pageSize
  pure ⟨page, if pageSize < fetched.length then
    page.getLast?.map fun last => encodeCursor (cursorForRow last order) else none⟩

/-- The rows of all pages, following at most `fuel` links. -/
def followLinks (entities : List Value) (filter : Option FilterExpr)
    (orderby : Option (List OrderByClause)) (pageSize : Nat) :
    Nat → Option String → Option (List Value)
  | 0, _ => none
  | fuel + 1, token => do
    let page ← readPage entities filter orderby pageSize token
    match page.nextSkiptoken with
    | none => pure page.entities
    | some next => do
      let rest ← followLinks entities filter orderby pageSize fuel (some next)
      pure (page.entities ++ rest)

/-- The rows without paging. -/
def fullResult (entities : List Value) (filter : Option FilterExpr)
    (orderby : Option (List OrderByClause)) : List Value :=
  (applyQueryOptions entities
    { filter := filter
      orderby := some (canonicalPaginationOrder orderby) }).1

/-- Following the links from the first page comes to an end, and the pages are the full result. -/
def PagesExactly (entities : List Value) (filter : Option FilterExpr)
    (orderby : Option (List OrderByClause)) (pageSize : Nat) : Prop :=
  ∃ fuel, followLinks entities filter orderby pageSize fuel none =
    some (fullResult entities filter orderby)

/-! ### One order in three encodings -/

/-- Values that the sort, the cursor and the filter order alike. -/
def Comparable : Value → Value → Prop
  | .number _, .number _ => True
  | .string _, .string _ => True
  | .bool a, .bool b => a = b
  | _, _ => False

/-- The present values of a property are comparable with each other. -/
def ComparableAt (entities : List Value) (prop : String) : Prop :=
  ∀ a ∈ entities, ∀ b ∈ entities, ∀ v w, resolveProperty a prop = some v →
    resolveProperty b prop = some w → Comparable v w

omit [Floats] [TokenCodec] in
lemma Comparable.not_null {v w : Value} (h : Comparable v w) :
    v.isNull = false ∧ w.isNull = false := by
  cases v <;> cases w <;> simp_all [Comparable, Value.isNull]

/-- Where an optional value stands: absent last, numbers by value, strings by text. -/
def absentRank : Option Value → Nat
  | some _ => 0
  | none => 1

def numberRank : Option Value → ℚ
  | some (.number n) => numValue n
  | _ => 0

def textRank : Option Value → String
  | some (.string s) => s
  | _ => ""

omit [TokenCodec] in
lemma compareProperty_eq {a b : Option Value}
    (h : ∀ v w, a = some v → b = some w → Comparable v w) :
    compareProperty a b = (compare (absentRank a) (absentRank b)).then
      ((compare (numberRank a) (numberRank b)).then (compare (textRank a) (textRank b))) := by
  match a, b with
  | none, none => simp [compareProperty, absentRank, numberRank, textRank]
  | none, some w => rfl
  | some v, none => rfl
  | some v, some w =>
    have hvw := h v w rfl rfl
    clear h
    revert hvw
    cases v <;> cases w <;>
      simp [compareProperty, absentRank, numberRank, textRank, jsonCmp, Comparable]

omit [TokenCodec] in
lemma weakOn_compareClause {entities : List Value} {clause : OrderByClause}
    (h : ComparableAt entities clause.property) :
    Keyset.WeakOn (compareClause clause) entities := by
  have hasc : Keyset.WeakOn (fun a b => compareProperty (resolveProperty a clause.property)
      (resolveProperty b clause.property)) entities := by
    have hranks : Keyset.WeakOn (fun a b =>
        (compare (absentRank (resolveProperty a clause.property))
          (absentRank (resolveProperty b clause.property))).then
        ((compare (numberRank (resolveProperty a clause.property))
          (numberRank (resolveProperty b clause.property))).then
        (compare (textRank (resolveProperty a clause.property))
          (textRank (resolveProperty b clause.property))))) entities :=
      .then_ (.of_key fun _ _ _ _ => rfl) (.then_ (.of_key fun _ _ _ _ => rfl)
        (.of_key fun _ _ _ _ => rfl))
    refine hranks.congr fun a ha b hb => ?_
    exact compareProperty_eq fun v w hv hw => h a ha b hb v w hv hw
  cases hdir : clause.direction with
  | asc => exact hasc.congr fun a _ b _ => by simp [compareClause, hdir]
  | desc => exact hasc.reverse.congr fun a _ b _ => by simp [compareClause, hdir]

variable {order : List OrderByClause}

omit [TokenCodec] in
lemma weakOn_compareEntities {entities : List Value}
    (h : ∀ clause ∈ order, ComparableAt entities clause.property) :
    Keyset.WeakOn (compareEntities order) entities := by
  induction order with
  | nil => constructor <;> simp [compareEntities]
  | cons clause order ih =>
    exact .then_ (weakOn_compareClause (h clause (by simp)))
      (ih fun c hc => h c (List.mem_cons_of_mem _ hc))

/-! ### The predicate keeps what comes after the boundary -/

omit [Floats] [TokenCodec] in
lemma intNumber_asI64 {n : Number} {i : Int} (h : n.asI64 = some i) : intNumber i = n := by
  cases n with
  | posInt m =>
    simp only [Number.asI64, Option.ite_none_right_eq_some, Option.some.injEq] at h
    simp [intNumber, ← h.2]
  | negInt m =>
    simp only [Number.asI64, Option.some.injEq] at h
    subst h
    rw [intNumber, if_neg (by omega)]
    congr 1
    omega
  | float _ => simp [Number.asI64] at h

omit [TokenCodec] in
/-- The literal of a comparable value compares as the value does. -/
lemma odataLiteral_of_comparable {v : Value} (h : Comparable v v) :
    ∃ value, odataLiteral v = some (.literal value) ∧
      (odataValueToJson value).isNull = false ∧
      ∀ w, jsonCmp w (odataValueToJson value) = jsonCmp w v ∧
        jsonEq w (odataValueToJson value) = jsonEq w v := by
  cases v with
  | null => exact h.elim
  | array _ => exact h.elim
  | object _ => exact h.elim
  | bool b => exact ⟨.boolean b, rfl, rfl, fun w => ⟨rfl, rfl⟩⟩
  | string s => exact ⟨.string s, rfl, rfl, fun w => ⟨rfl, rfl⟩⟩
  | number n =>
    cases hi : n.asI64 with
    | some i =>
      refine ⟨.int i, by simp [odataLiteral, hi], rfl, fun w => ?_⟩
      rw [odataValueToJson, intNumber_asI64 hi]
      exact ⟨rfl, rfl⟩
    | none =>
      refine ⟨.float (.finite (asF64 n)), by simp [odataLiteral, hi], rfl, fun w => ?_⟩
      cases w <;> simp [odataValueToJson, jsonCmp, jsonEq, numValue, asF64, Value.eq]

omit [TokenCodec] in
lemma jsonCmp_swap (v w : Value) : jsonCmp w v = (jsonCmp v w).map Ordering.swap := by
  cases v <;> cases w <;> simp [jsonCmp]
  · exact Std.OrientedOrd.eq_swap
  · exact Std.OrientedOrd.eq_swap

omit [TokenCodec] in
/-- Comparable values are equal exactly when neither comes first. -/
lemma Comparable.jsonEq_iff {v w : Value} (h : Comparable v w) :
    jsonEq w v = decide ((jsonCmp v w).getD .eq = .eq) := by
  cases v <;> cases w <;> simp_all [Comparable, jsonEq, jsonCmp]
  · exact eq_comm
  · exact eq_comm

omit [TokenCodec] in
lemma evaluate_compareExpr {op : BinaryOperator} (hand : op ≠ .and) (hor : op ≠ .or)
    (entity : Value) (prop : String) (value : ODataValue) :
    evaluateFilter entity (compareExpr (.property prop) op (.literal value)) =
      some (compareNullable (resolveProperty entity prop) (some (odataValueToJson value)) op) := by
  cases op <;> simp_all [compareExpr, evaluateFilter, comparisonOperand]

omit [TokenCodec] in
lemma compareNullable_some {left right : Value} (hleft : left.isNull = false)
    (hright : right.isNull = false) (op : BinaryOperator) :
    compareNullable (some left) (some right) op = compareValues left right op := by
  have hl : (some left).filter (!·.isNull) = some left := by simp [hleft]
  have hr : (some right).filter (!·.isNull) = some right := by simp [hright]
  cases op <;> simp only [compareNullable, hl, hr, compareValues]

omit [TokenCodec] in
lemma evaluate_isNullExpr {entity : Value} {prop : String}
    (h : ∀ w, resolveProperty entity prop = some w → w.isNull = false) :
    evaluateFilter entity (isNullExpr (.property prop)) =
      some (resolveProperty entity prop).isNone := by
  rw [isNullExpr, evaluate_compareExpr (by decide) (by decide)]
  cases hprop : resolveProperty entity prop with
  | none => rfl
  | some w =>
    have hw : (some w).filter (!·.isNull) = some w := by simp [h w hprop]
    have hnull : (some (odataValueToJson .null)).filter (!·.isNull) = none := rfl
    simp only [compareNullable, hw, hnull, Option.isNone_some]

omit [TokenCodec] in
lemma evaluate_isNotNullExpr {entity : Value} {prop : String}
    (h : ∀ w, resolveProperty entity prop = some w → w.isNull = false) :
    evaluateFilter entity (isNotNullExpr (.property prop)) =
      some (resolveProperty entity prop).isSome := by
  rw [isNotNullExpr, evaluate_compareExpr (by decide) (by decide)]
  cases hprop : resolveProperty entity prop with
  | none => rfl
  | some w =>
    have hw : (some w).filter (!·.isNull) = some w := by simp [h w hprop]
    have hnull : (some (odataValueToJson .null)).filter (!·.isNull) = none := rfl
    simp only [compareNullable, hw, hnull, Option.isSome_some]

section Boundary

variable {row : Value} {clause : OrderByClause}

/-- An entity whose value can be compared with the boundary's. -/
def ComparesWith (row : Value) (clause : OrderByClause) (entity : Value) : Prop :=
  ∀ v w, resolveProperty row clause.property = some v →
    resolveProperty entity clause.property = some w → Comparable v w

omit [TokenCodec] in
lemma strictlyAfterAt_spec (hself : ComparesWith row clause row) :
    ∃ e, strictlyAfterAt clause (cursorKeyFor row clause) = some e ∧
      ∀ entity, ComparesWith row clause entity →
        (∀ w, resolveProperty entity clause.property = some w → w.isNull = false) →
        evaluateFilter entity e = some (decide (compareClause clause row entity = .lt)) := by
  cases hrow : resolveProperty row clause.property with
  | none =>
    cases hdir : clause.direction with
    | asc =>
      refine ⟨literalFalse, by simp [strictlyAfterAt, cursorKeyFor, hrow, hdir], ?_⟩
      intro entity _ _
      cases hentity : resolveProperty entity clause.property <;>
        simp [compareClause, hrow, hdir, hentity, compareProperty, literalFalse, evaluateFilter]
    | desc =>
      refine ⟨isNotNullExpr (.property clause.property), ?_, ?_⟩
      · simp only [strictlyAfterAt, cursorKeyFor, hrow, hdir]
      intro entity _ hnull
      rw [evaluate_isNotNullExpr hnull]
      cases hentity : resolveProperty entity clause.property <;>
        simp [compareClause, hrow, hdir, hentity, compareProperty]
  | some v =>
    obtain ⟨value, hlit, hnn, hvalue⟩ := odataLiteral_of_comparable (hself v v hrow hrow)
    cases hdir : clause.direction with
    | asc =>
      refine ⟨orExpr (compareExpr (.property clause.property) .gt (.literal value))
        (isNullExpr (.property clause.property)), ?_, ?_⟩
      · simp only [strictlyAfterAt, cursorKeyFor, hrow, hdir, hlit, Option.map_some]
      intro entity hcmp hnull
      simp only [orExpr, evaluateFilter, evaluate_isNullExpr hnull]
      rw [evaluate_compareExpr (by decide) (by decide)]
      cases hentity : resolveProperty entity clause.property with
      | none => simp [compareClause, hrow, hdir, hentity, compareProperty, compareNullable]
      | some w =>
        have hvw := hcmp v w hrow hentity
        simp only [compareClause, hrow, hdir, hentity, compareProperty,
          compareNullable_some hvw.not_null.2 hnn, compareValues, (hvalue w).1, jsonCmp_swap v w]
        cases jsonCmp v w with
        | none => rfl
        | some o => cases o <;> rfl
    | desc =>
      refine ⟨compareExpr (.property clause.property) .lt (.literal value), ?_, ?_⟩
      · simp only [strictlyAfterAt, cursorKeyFor, hrow, hdir, hlit, Option.map_some]
      intro entity hcmp _
      rw [evaluate_compareExpr (by decide) (by decide)]
      cases hentity : resolveProperty entity clause.property with
      | none => simp [compareClause, hrow, hdir, hentity, compareProperty, compareNullable]
      | some w =>
        have hvw := hcmp v w hrow hentity
        simp only [compareClause, hrow, hdir, hentity, compareProperty,
          compareNullable_some hvw.not_null.2 hnn, compareValues, (hvalue w).1, jsonCmp_swap v w]
        cases jsonCmp v w with
        | none => rfl
        | some o => cases o <;> rfl

omit [TokenCodec] in
lemma equalAt_spec (hself : ComparesWith row clause row) {entity : Value}
    (hcmp : ComparesWith row clause entity)
    (hnull : ∀ w, resolveProperty entity clause.property = some w → w.isNull = false) :
    evaluateFilter entity (equalAt clause (cursorKeyFor row clause)) =
      some (decide (compareClause clause row entity = .eq)) := by
  have hswap : ∀ o : Ordering, o.swap = .eq ↔ o = .eq := by decide
  have hclause : compareClause clause row entity = .eq ↔
      compareProperty (resolveProperty row clause.property)
        (resolveProperty entity clause.property) = .eq := by
    cases hdir : clause.direction <;> simp [compareClause, hdir, hswap]
  simp only [hclause]
  cases hrow : resolveProperty row clause.property with
  | none =>
    simp only [equalAt, cursorKeyFor, hrow, Bool.false_eq_true, if_false, evaluate_isNullExpr hnull]
    cases hentity : resolveProperty entity clause.property <;> rfl
  | some v =>
    obtain ⟨value, hlit, hnn, hvalue⟩ := odataLiteral_of_comparable (hself v v hrow hrow)
    simp only [equalAt, cursorKeyFor, hrow, if_true, hlit]
    rw [evaluate_compareExpr (by decide) (by decide)]
    cases hentity : resolveProperty entity clause.property with
    | none => simp [compareProperty, compareNullable, hnn]
    | some w =>
      have hvw := hcmp v w hrow hentity
      simp only [compareProperty, compareNullable_some hvw.not_null.2 hnn, compareValues,
        (hvalue w).2, hvw.jsonEq_iff]
      exact congrArg some (decide_eq_decide.mpr Iff.rfl)

end Boundary

omit [TokenCodec] in
/-- The predicate of a boundary row holds of the rows that sort strictly after it. -/
lemma keysetFrom_spec {entities : List Value}
    (h : ∀ clause ∈ order, ComparableAt entities clause.property) {row : Value}
    (hrow : row ∈ entities) :
    ∃ e, keysetFrom order (cursorForRow row order) = some e ∧ ∀ entity ∈ entities,
      evaluateFilter entity e = some (decide (compareEntities order row entity = .lt)) := by
  induction order with
  | nil =>
    refine ⟨literalFalse, rfl, fun entity _ => ?_⟩
    simp [literalFalse, evaluateFilter, compareEntities]
  | cons clause order ih =>
    have hclause := h clause (by simp)
    have hcmp : ∀ entity ∈ entities, ComparesWith row clause entity :=
      fun entity hentity => hclause row hrow entity hentity
    have hnull : ∀ entity ∈ entities, ∀ w, resolveProperty entity clause.property = some w →
        w.isNull = false :=
      fun entity hentity w hw => (hclause entity hentity entity hentity w w hw hw).not_null.1
    obtain ⟨strict, hstrict, hstrict'⟩ := strictlyAfterAt_spec (hcmp row hrow)
    obtain ⟨deeper, hdeeper, hdeeper'⟩ := ih fun c hc => h c (List.mem_cons_of_mem _ hc)
    rw [cursorForRow] at hdeeper
    refine ⟨orExpr strict (andExpr (equalAt clause (cursorKeyFor row clause)) deeper), ?_, ?_⟩
    · simp [cursorForRow, keysetFrom, hstrict, hdeeper]
    · intro entity hentity
      simp only [orExpr, andExpr, evaluateFilter,
        hstrict' entity (hcmp entity hentity) (hnull entity hentity),
        equalAt_spec (hcmp row hrow) (hcmp entity hentity) (hnull entity hentity),
        hdeeper' entity hentity, compareEntities]
      have hthen : ∀ o o' : Ordering,
          o = .lt ∨ o = .eq ∧ o' = .lt ↔ o.then o' = .lt := by decide
      simp only [Option.bind_eq_bind, Option.bind_some, Option.pure_def, Option.some.injEq]
      rw [Bool.eq_iff_iff]
      simp only [Bool.or_eq_true, Bool.and_eq_true, decide_eq_true_iff, hthen]
      exact decide_eq_true_iff.symm

omit [Floats] in
lemma decodeCursor_encodeCursor {cursor : List CursorKey} (h : cursor ≠ []) :
    decodeCursor (encodeCursor cursor) = some cursor := by
  have hkey : keyFromValue ∘ keyToValue = pure := rfl
  have hkeys : (cursor.map keyToValue).mapM keyFromValue = some cursor := by
    rw [List.mapM_map, hkey, List.mapM_pure]
    simp
  simp [decodeCursor, encodeCursor, TokenCodec.decode_encode, hkeys, h]

/-! ### Reading every page -/

/-- Rows with distinct string ids, ascending. -/
def AscendingIds (entities : List Value) : Prop :=
  ∃ ids : List String, entities.map (resolveProperty · idProperty) =
    ids.map (fun id => some (.string id)) ∧ ids.Pairwise (· < ·)

omit [Floats] [TokenCodec] in
lemma AscendingIds.exists_id {entities : List Value} (h : AscendingIds entities) {row : Value}
    (hrow : row ∈ entities) : ∃ id, resolveProperty row idProperty = some (.string id) := by
  obtain ⟨ids, hids, -⟩ := h
  have hmem : resolveProperty row idProperty ∈ entities.map (resolveProperty · idProperty) :=
    List.mem_map_of_mem hrow
  rw [hids] at hmem
  obtain ⟨id, -, hid⟩ := List.mem_map.mp hmem
  exact ⟨id, hid.symm⟩

omit [Floats] [TokenCodec] in
lemma AscendingIds.comparableAt {entities : List Value} (h : AscendingIds entities) :
    ComparableAt entities idProperty := by
  intro a ha b hb v w hv hw
  obtain ⟨i, hi⟩ := h.exists_id ha
  obtain ⟨j, hj⟩ := h.exists_id hb
  obtain rfl : Value.string i = v := Option.some.inj (hi.symm.trans hv)
  obtain rfl : Value.string j = w := Option.some.inj (hj.symm.trans hw)
  trivial

omit [Floats] [TokenCodec] in
lemma AscendingIds.pairwise {entities : List Value} (h : AscendingIds entities) :
    entities.Pairwise fun a b => ∃ i j, resolveProperty a idProperty = some (.string i) ∧
      resolveProperty b idProperty = some (.string j) ∧ i < j := by
  obtain ⟨ids, hids, hsorted⟩ := h
  have hmap : (entities.map (resolveProperty · idProperty)).Pairwise fun a b =>
      ∃ i j, a = some (.string i) ∧ b = some (.string j) ∧ i < j := by
    rw [hids, List.pairwise_map]
    exact hsorted.imp fun {i j} hij => ⟨i, j, rfl, rfl, hij⟩
  exact List.pairwise_map.mp hmap

omit [TokenCodec] in
lemma AscendingIds.compareEntities_lt {entities : List Value} (h : AscendingIds entities) :
    entities.Pairwise fun a b => compareEntities [⟨idProperty, .asc⟩] a b = .lt := by
  refine h.pairwise.imp ?_
  rintro a b ⟨i, j, hi, hj, hij⟩
  simp [compareEntities, compareClause, hi, hj, compareProperty, jsonCmp, compare_lt_iff_lt.mpr hij]

omit [Floats] [TokenCodec] in
lemma AscendingIds.nodup {entities : List Value} (h : AscendingIds entities) :
    entities.Nodup := by
  refine h.pairwise.imp ?_
  rintro a b ⟨i, j, hi, hj, hij⟩ rfl
  obtain rfl : i = j := by simpa [hi] using hj
  exact lt_irrefl i hij

omit [Floats] [TokenCodec] in
lemma AscendingIds.eq_of_id_eq {entities : List Value} (h : AscendingIds entities) :
    ∀ a ∈ entities, ∀ b ∈ entities,
      resolveProperty a idProperty = resolveProperty b idProperty → a = b := by
  obtain ⟨ids, hids, hsorted⟩ := h
  have hnodup : (entities.map (resolveProperty · idProperty)).Nodup := by
    rw [hids]
    refine (hsorted.imp ne_of_lt).map _ ?_
    intro i j hij hsome
    exact hij (Value.string.inj (Option.some.inj hsome))
  intro a ha b hb hab
  exact List.inj_on_of_nodup_map hnodup ha hb hab

omit [Floats] [TokenCodec] in
lemma exists_id_clause (orderby : Option (List OrderByClause)) :
    ∃ clause ∈ canonicalPaginationOrder orderby, clause.property = idProperty := by
  simp only [canonicalPaginationOrder]
  split
  · exact ⟨_, List.mem_append_right _ (List.mem_singleton_self _), rfl⟩
  next h =>
    cases hlast : (orderby.getD []).getLast? with
    | none => simp [hlast] at h
    | some clause => exact ⟨clause, List.mem_of_getLast? hlast, by simpa [hlast] using h⟩

omit [TokenCodec] in
lemma compareClause_eq_of_compareEntities {a b : Value} (h : compareEntities order a b = .eq) :
    ∀ clause ∈ order, compareClause clause a b = .eq := by
  induction order with
  | nil => simp
  | cons clause order ih =>
    rw [compareEntities, Ordering.then_eq_eq] at h
    rintro c (_ | ⟨_, hc⟩)
    · exact h.1
    · exact ih h.2 c hc

omit [TokenCodec] in
/-- The canonical order tells all rows apart by their ids. -/
lemma strictOn_canonical {entities : List Value} {orderby : Option (List OrderByClause)}
    (hids : AscendingIds entities)
    (h : ∀ clause ∈ canonicalPaginationOrder orderby, ComparableAt entities clause.property) :
    Keyset.StrictOn (compareEntities (canonicalPaginationOrder orderby)) entities := by
  refine ⟨weakOn_compareEntities h, fun a ha b hb heq => ?_⟩
  obtain ⟨clause, hclause, hid⟩ := exists_id_clause orderby
  have hcmp := compareClause_eq_of_compareEntities heq clause hclause
  obtain ⟨i, hi⟩ := hids.exists_id ha
  obtain ⟨j, hj⟩ := hids.exists_id hb
  have hswap : ∀ o : Ordering, o.swap = .eq ↔ o = .eq := by decide
  have hij : i = j := by
    cases hdir : clause.direction <;>
      simpa [compareClause, hdir, hid, hi, hj, compareProperty, jsonCmp, hswap] using hcmp
  exact hids.eq_of_id_eq a ha b hb (by rw [hi, hj, hij])

section Pages

variable {entities : List Value} {filter : Option FilterExpr}
  {orderby : Option (List OrderByClause)} {pageSize : Nat}

/-- The entities a request without a token keeps. -/
def kept (entities : List Value) (filter : Option FilterExpr) : List Value :=
  match filter with
  | some filter => entities.filter (passes filter)
  | none => entities

omit [TokenCodec] in
lemma kept_subset : kept entities filter ⊆ entities := by
  cases filter with
  | none => exact List.Subset.refl _
  | some filter => exact List.filter_subset_self _

omit [TokenCodec] in
lemma kept_nodup (hids : AscendingIds entities) : (kept entities filter).Nodup := by
  cases filter with
  | none => exact hids.nodup
  | some filter => exact hids.nodup.filter _

omit [TokenCodec] in
lemma fullResult_eq : fullResult entities filter orderby =
    Keyset.sortBy (compareEntities (canonicalPaginationOrder orderby)) (kept entities filter) := by
  cases filter <;> rfl

omit [TokenCodec] in
/-- A filter and-ed with a total predicate keeps what both keep. -/
lemma kept_andFilter {keyset : FilterExpr} {after : Value → Bool}
    (h : ∀ entity ∈ entities, evaluateFilter entity keyset = some (after entity)) :
    kept entities (some (andFilter filter keyset)) = (kept entities filter).filter after := by
  cases filter with
  | none =>
    refine List.filter_congr fun entity hentity => ?_
    simp [andFilter, passes, h entity hentity]
  | some filter =>
    simp only [kept, List.filter_filter]
    refine List.filter_congr fun entity hentity => ?_
    simp only [andFilter, andExpr, passes, evaluateFilter, h entity hentity]
    cases evaluateFilter entity filter <;> simp [Bool.and_comm]

/-- The page that starts a list of rows. -/
def pageOf (order : List OrderByClause) (pageSize : Nat) (rows : List Value) : Page :=
  ⟨rows.take pageSize, if pageSize < rows.length then
    (rows.take pageSize).getLast?.map fun last => encodeCursor (cursorForRow last order) else none⟩

omit [TokenCodec] in
/-- Without `$orderby` the rows are in canonical order as they are listed. -/
lemma fetched_eq (hids : AscendingIds entities) (orderby : Option (List OrderByClause))
    (options : QueryOptions)
    (horder : options.orderby = orderby.map fun _ => canonicalPaginationOrder orderby)
    (hskip : options.skip = none) (hselect : options.select = none)
    (htop : options.top = some (pageSize + 1)) :
    (applyQueryOptions entities options).1 =
      (Keyset.sortBy (compareEntities (canonicalPaginationOrder orderby))
        (kept entities options.filter)).take (pageSize + 1) := by
  have hsorted : options.orderby.elim (kept entities options.filter)
      (sortEntities (kept entities options.filter)) =
      Keyset.sortBy (compareEntities (canonicalPaginationOrder orderby))
        (kept entities options.filter) := by
    cases orderby with
    | some orderby => simp [horder, sortEntities, Keyset.sortBy]
    | none =>
      simp only [horder, Option.map_none]
      refine (Keyset.sortBy_of_pairwise ?_).symm
      cases options.filter with
      | none => exact hids.compareEntities_lt
      | some filter => exact hids.compareEntities_lt.filter _
  simp only [applyQueryOptions, hskip, hselect, htop, Option.getD_none, List.drop_zero]
  rw [← hsorted]
  cases options.orderby <;> rfl

lemma readPage_none (hids : AscendingIds entities) :
    readPage entities filter orderby pageSize none =
      some (pageOf (canonicalPaginationOrder orderby) pageSize
        (fullResult entities filter orderby)) := by
  have hlt : ∀ n, pageSize < min (pageSize + 1) n ↔ pageSize < n := by omega
  simp only [readPage, Option.bind_eq_bind, Option.bind_some]
  rw [fetched_eq hids _ _ rfl rfl rfl rfl]
  simp [pageOf, fullResult_eq, List.take_take, hlt]

variable (pageSize) in
/-- A token resumes right behind the row it was made for. -/
lemma readPage_some (hids : AscendingIds entities)
    (hcmp : ∀ clause ∈ canonicalPaginationOrder orderby, ComparableAt entities clause.property)
    {pre post : List Value} {row : Value}
    (hfull : fullResult entities filter orderby = pre ++ row :: post) :
    readPage entities filter orderby pageSize
        (some (encodeCursor (cursorForRow row (canonicalPaginationOrder orderby)))) =
      some (pageOf (canonicalPaginationOrder orderby) pageSize post) := by
  have hstrict := strictOn_canonical hids hcmp
  have hkept : ∀ x ∈ pre ++ row :: post, x ∈ entities := by
    intro x hx
    rw [← hfull, fullResult_eq, Keyset.mem_sortBy] at hx
    exact kept_subset hx
  have hrow : row ∈ entities := hkept row (by simp)
  obtain ⟨keyset, hkeyset, hafter⟩ := keysetFrom_spec hcmp hrow
  have hrest : Keyset.sortBy (compareEntities (canonicalPaginationOrder orderby))
      (kept entities (some (andFilter filter keyset))) = post := by
    rw [kept_andFilter hafter, (hstrict.mono kept_subset).sortBy_filter, ← fullResult_eq, hfull]
    refine Keyset.filter_after (hstrict.refl hrow) (fun b hb => ?_) ?_
    · exact hstrict.swap b (hkept b (by simp [hb])) row hrow
    · rw [← hfull, fullResult_eq]
      exact (hstrict.mono kept_subset).strictly_sorted (kept_nodup hids)
  have hresume : resumePredicate (canonicalPaginationOrder orderby)
      (encodeCursor (cursorForRow row (canonicalPaginationOrder orderby))) = some keyset := by
    have hne : cursorForRow row (canonicalPaginationOrder orderby) ≠ [] := by
      obtain ⟨clause, hclause, -⟩ := exists_id_clause orderby
      simpa [cursorForRow] using List.ne_nil_of_mem hclause
    rw [resumePredicate, decodeCursor_encodeCursor hne, Option.bind_some, keysetAfterPredicate,
      if_pos (by simp [cursorForRow]), hkeyset]
  have hlt : ∀ n, pageSize < min (pageSize + 1) n ↔ pageSize < n := by omega
  simp only [readPage, hresume, Option.map_some, Option.bind_eq_bind, Option.bind_some]
  rw [fetched_eq hids _ _ rfl rfl rfl rfl, hrest]
  simp [pageOf, List.take_take, hlt]

/-- From a page that starts the remaining rows, the links lead through all of them. -/
lemma followLinks_of_readPage (hids : AscendingIds entities)
    (hcmp : ∀ clause ∈ canonicalPaginationOrder orderby, ComparableAt entities clause.property)
    (hsize : 1 ≤ pageSize) {pre rest : List Value} {token : Option String}
    (hfull : fullResult entities filter orderby = pre ++ rest)
    (hpage : readPage entities filter orderby pageSize token =
      some (pageOf (canonicalPaginationOrder orderby) pageSize rest)) (fuel : Nat)
    (hfuel : rest.length < fuel) :
    followLinks entities filter orderby pageSize fuel token = some rest := by
  induction fuel generalizing pre rest token with
  | zero => omega
  | succ fuel ih =>
    simp only [followLinks, hpage, Option.bind_eq_bind, Option.bind_some, pageOf]
    by_cases hmore : pageSize < rest.length
    · -- the last row of this page is where the next one resumes
      have hne : rest.take pageSize ≠ [] := by
        rw [Ne, List.take_eq_nil_iff, not_or]
        exact ⟨by omega, List.ne_nil_of_length_pos (by omega)⟩
      obtain ⟨front, last, hlast⟩ := List.eq_nil_or_concat (rest.take pageSize) |>.resolve_left hne
      rw [List.concat_eq_append] at hlast
      have hrest : rest = (front ++ [last]) ++ rest.drop pageSize := by
        rw [← hlast, List.take_append_drop]
      have hfull' : fullResult entities filter orderby =
          (pre ++ front) ++ last :: rest.drop pageSize := by
        rw [hfull]
        nth_rewrite 1 [hrest]
        simp
      have hnext := readPage_some pageSize hids hcmp hfull'
      have hfollow := ih (hfull'.trans (List.append_cons _ _ _)) hnext (by simp; omega)
      rw [if_pos hmore, hlast, List.getLast?_append]
      simp only [List.getLast?_singleton, Option.some_or, Option.map_some, hfollow, Option.bind_some]
      exact congrArg some hrest.symm
    · rw [if_neg hmore, List.take_of_length_le (by omega)]
      rfl

theorem pagesExactly_of_comparable (hids : AscendingIds entities)
    (hcmp : ∀ clause ∈ canonicalPaginationOrder orderby, ComparableAt entities clause.property)
    (hsize : 1 ≤ pageSize) : PagesExactly entities filter orderby pageSize :=
  ⟨_, followLinks_of_readPage hids hcmp hsize (List.nil_append _).symm (readPage_none hids) _
    (Nat.lt_succ_self _)⟩

end Pages

/-! ### Values that break the pages -/

section Broken

variable {prop : String} {v w : Value}

def rowWith (id prop : String) (v : Value) : Value :=
  .object [(idProperty, .string id), (prop, v)]

/-- Two rows in the order of their ids. -/
def twoRows (prop : String) (v w : Value) : List Value := [rowWith "a" prop v, rowWith "b" prop w]

def twoRowsOrder (prop : String) : List OrderByClause := [⟨prop, .asc⟩, ⟨idProperty, .asc⟩]

def twoRowsToken (v : Value) : String :=
  encodeCursor [⟨true, v⟩, ⟨true, .string "a"⟩]

omit [Floats] [TokenCodec] in
@[simp] lemma resolveProperty_rowWith_id (id : String) :
    resolveProperty (rowWith id prop v) idProperty = some (.string id) := by
  simp [resolveProperty, rowWith, idProperty, Value.get, IndexMap.get]

omit [Floats] [TokenCodec] in
@[simp] lemma resolveProperty_rowWith (h : prop ≠ idProperty) (id : String) :
    resolveProperty (rowWith id prop v) prop = some v := by
  have hget : (rowWith id prop v).get prop = some v := by
    simp [rowWith, Value.get, IndexMap.get_cons, h.symm]
  unfold resolveProperty
  split_ifs with hupper hlower
  · subst hupper; simp [statusMember, hget]
  · subst hlower; simp [statusMember, hget]
  · simp [hget]

omit [Floats] [TokenCodec] in
lemma a_lt_b : "a" < "b" := String.lt_iff_toList_lt.mpr (by decide)

omit [Floats] [TokenCodec] in
lemma ascendingIds_twoRows : AscendingIds (twoRows prop v w) :=
  ⟨["a", "b"], by simp [twoRows], by simpa using a_lt_b⟩

omit [Floats] [TokenCodec] in
lemma canonicalPaginationOrder_clause (h : prop ≠ idProperty) :
    canonicalPaginationOrder (some [⟨prop, .asc⟩]) = twoRowsOrder prop := by
  simp [canonicalPaginationOrder, twoRowsOrder, h]

omit [TokenCodec] in
/-- Values that cannot be compared leave the rows in the order of their ids. -/
lemma sortBy_twoRows (h : prop ≠ idProperty) (hcmp : (jsonCmp v w).getD .eq = .eq) :
    Keyset.sortBy (compareEntities (twoRowsOrder prop)) (twoRows prop v w) =
      twoRows prop v w := by
  refine Keyset.sortBy_of_pairwise ?_
  have hids : jsonCmp (.string "a") (.string "b") = some .lt :=
    congrArg some (compare_lt_iff_lt.mpr a_lt_b)
  simp [twoRows, twoRowsOrder, compareEntities, compareClause, h, compareProperty, hcmp, hids]

omit [TokenCodec] in
lemma fullResult_twoRows (h : prop ≠ idProperty) (hcmp : (jsonCmp v w).getD .eq = .eq) :
    fullResult (twoRows prop v w) none (some [⟨prop, .asc⟩]) = twoRows prop v w := by
  rw [fullResult_eq, canonicalPaginationOrder_clause h]
  exact sortBy_twoRows h hcmp

/-- The first page of two rows that stay in the order of their ids. -/
lemma readPage_twoRows (h : prop ≠ idProperty) (hcmp : (jsonCmp v w).getD .eq = .eq) :
    readPage (twoRows prop v w) none (some [⟨prop, .asc⟩]) 1 none =
      some ⟨[rowWith "a" prop v], some (twoRowsToken v)⟩ := by
  rw [readPage_none ascendingIds_twoRows, fullResult_twoRows h hcmp,
    canonicalPaginationOrder_clause h]
  simp [pageOf, twoRows, twoRowsToken, twoRowsOrder, cursorForRow, cursorKeyFor, h]

lemma resumePredicate_twoRows :
    resumePredicate (twoRowsOrder prop) (twoRowsToken v) =
      keysetFrom (twoRowsOrder prop) [⟨true, v⟩, ⟨true, .string "a"⟩] := by
  rw [resumePredicate, twoRowsToken, decodeCursor_encodeCursor (by simp)]
  simp [keysetAfterPredicate, twoRowsOrder]

/-- The second page, by the verdict of the predicate on each row. -/
lemma readPage_twoRows_token (h : prop ≠ idProperty) {keyset : FilterExpr} {after : Value → Bool}
    (hkeyset : keysetFrom (twoRowsOrder prop) [⟨true, v⟩, ⟨true, .string "a"⟩] = some keyset)
    (hafter : ∀ entity ∈ twoRows prop v w, evaluateFilter entity keyset = some (after entity)) :
    readPage (twoRows prop v w) none (some [⟨prop, .asc⟩]) 1 (some (twoRowsToken v)) =
      some (pageOf (twoRowsOrder prop) 1
        (Keyset.sortBy (compareEntities (twoRowsOrder prop))
          ((twoRows prop v w).filter after))) := by
  have hlt : ∀ n, 1 < min (1 + 1) n ↔ 1 < n := by omega
  have horder := canonicalPaginationOrder_clause h
  simp only [readPage, horder, resumePredicate_twoRows, hkeyset, Option.map_some,
    Option.bind_eq_bind, Option.bind_some]
  rw [fetched_eq ascendingIds_twoRows (some [⟨prop, .asc⟩]) _ (by simp [horder]) rfl rfl
    rfl, horder, kept_andFilter hafter]
  simp [pageOf, kept, List.take_take, hlt]

omit [TokenCodec] in
/-- The predicate of the first row, evaluated on a row. -/
lemma evaluate_twoRows_keyset (h : prop ≠ idProperty) {value : ODataValue}
    (hlit : odataLiteral v = some (.literal value)) :
    ∃ keyset, keysetFrom (twoRowsOrder prop) [⟨true, v⟩, ⟨true, .string "a"⟩] = some keyset ∧
      ∀ id x, evaluateFilter (rowWith id prop x) keyset =
        some (compareNullable (some x) (some (odataValueToJson value)) .gt ||
          compareNullable (some x) (some .null) .eq ||
          compareNullable (some x) (some (odataValueToJson value)) .eq &&
            decide (compare id "a" = .gt)) := by
  have hid : odataLiteral (.string "a") = some (.literal (.string "a")) := rfl
  refine ⟨_, by
    simp only [twoRowsOrder, keysetFrom, strictlyAfterAt, equalAt, if_true, hlit, hid,
      Option.map_some, Option.bind_eq_bind, Option.bind_some, Option.pure_def]
    exact rfl, fun id x => ?_⟩
  simp only [orExpr, andExpr, evaluateFilter, isNullExpr,
    evaluate_compareExpr (by decide : BinaryOperator.gt ≠ .and) (by decide),
    evaluate_compareExpr (by decide : BinaryOperator.eq ≠ .and) (by decide),
    resolveProperty_rowWith h, resolveProperty_rowWith_id, literalFalse]
  have hgt : compareNullable (some (.string id)) (some (odataValueToJson (.string "a"))) .gt =
      decide (compare id "a" = .gt) := rfl
  have hnull : compareNullable (some (.string id)) (some (odataValueToJson .null)) .eq = false := rfl
  simp only [hgt, hnull, Option.bind_eq_bind, Option.bind_some, Option.map_some, Option.pure_def,
    Bool.or_false, Bool.not_true, Bool.and_false]
  rfl

/-- Nulls come last in the order and after every boundary in the predicate: the first page is read
again and again. -/
lemma not_pagesExactly_of_null (h : prop ≠ idProperty) :
    ¬ PagesExactly (twoRows prop .null .null) none (some [⟨prop, .asc⟩]) 1 := by
  have hlit : odataLiteral .null = some (.literal .null) := rfl
  obtain ⟨keyset, hkeyset, hrow⟩ := evaluate_twoRows_keyset h hlit
  have hpage : readPage (twoRows prop .null .null) none (some [⟨prop, .asc⟩]) 1
      (some (twoRowsToken .null)) =
      some ⟨[rowWith "a" prop .null], some (twoRowsToken .null)⟩ := by
    have hnull : compareNullable (some .null) (some .null) .eq = true := rfl
    have hafter : ∀ entity ∈ twoRows prop .null .null,
        evaluateFilter entity keyset = some true := by
      simp [twoRows, hrow, hnull]
    rw [readPage_twoRows_token h hkeyset hafter, List.filter_true, sortBy_twoRows h rfl]
    simp [pageOf, twoRows, twoRowsToken, twoRowsOrder, cursorForRow, cursorKeyFor, h]
  have hloop : ∀ fuel, followLinks (twoRows prop .null .null) none (some [⟨prop, .asc⟩]) 1 fuel
      (some (twoRowsToken .null)) = none := by
    intro fuel
    induction fuel with
    | zero => rfl
    | succ fuel ih => simp [followLinks, hpage, ih]
  rintro ⟨fuel, hfuel⟩
  cases fuel with
  | zero => simp [followLinks] at hfuel
  | succ fuel =>
    have hfirst := readPage_twoRows h (v := .null) (w := .null) rfl
    simp [followLinks, hfirst, hloop fuel] at hfuel

/-- A composite value makes a token that is refused. -/
lemma not_pagesExactly_of_composite (h : prop ≠ idProperty) (hcmp : jsonCmp v v = none)
    (hlit : odataLiteral v = none) :
    ¬ PagesExactly (twoRows prop v v) none (some [⟨prop, .asc⟩]) 1 := by
  have hcmp' : (jsonCmp v v).getD .eq = .eq := by rw [hcmp]; rfl
  have hpage : readPage (twoRows prop v v) none (some [⟨prop, .asc⟩]) 1
      (some (twoRowsToken v)) = none := by
    simp [readPage, canonicalPaginationOrder_clause h, resumePredicate_twoRows]
    simp [twoRowsOrder, keysetFrom, strictlyAfterAt, hlit]
  rintro ⟨fuel, hfuel⟩
  rcases fuel with _ | _ | fuel <;>
    simp [followLinks, readPage_twoRows h hcmp', hpage] at hfuel

/-- A value that cannot be compared with the boundary is not after it, and is lost. -/
lemma not_pagesExactly_of_not_comparable (h : prop ≠ idProperty) (hv : Comparable v v)
    (hw : Comparable w w) (hvw : ¬ Comparable v w) :
    ¬ PagesExactly (twoRows prop v w) none (some [⟨prop, .asc⟩]) 1 := by
  have hcmp : jsonCmp v w = none ∧ jsonCmp w v = none ∧ jsonEq w v = false := by
    cases v <;> cases w <;> simp_all [Comparable, jsonCmp, jsonEq, Value.eq, eq_comm]
  have hself : (jsonCmp v v).any (· = .gt) = false := by
    cases v <;> simp_all [Comparable, jsonCmp]
  obtain ⟨value, hlit, hnn, hvalue⟩ := odataLiteral_of_comparable hv
  obtain ⟨keyset, hkeyset, hrow⟩ := evaluate_twoRows_keyset h hlit
  have hnull : ∀ x : Value, x.isNull = false →
      compareNullable (some x) (some .null) .eq = false := by
    intro x hx
    cases x <;> first | rfl | simp [Value.isNull] at hx
  have hafter : ∀ entity ∈ twoRows prop v w, evaluateFilter entity keyset = some false := by
    simp [twoRows, hrow, hnull _ hv.not_null.1, hnull _ hw.not_null.1,
      compareNullable_some hv.not_null.1 hnn, compareNullable_some hw.not_null.1 hnn,
      compareValues, hvalue, hcmp, hself]
  have hcmp' : (jsonCmp v w).getD .eq = .eq := by rw [hcmp.1]; rfl
  have hpage : readPage (twoRows prop v w) none (some [⟨prop, .asc⟩]) 1
      (some (twoRowsToken v)) = some ⟨[], none⟩ := by
    rw [readPage_twoRows_token h hkeyset hafter, List.filter_false]
    simp [pageOf, Keyset.sortBy]
  have hlost : [rowWith "a" prop v] ≠ twoRows prop v w := by simp [twoRows]
  rintro ⟨fuel, hfuel⟩
  rw [fullResult_twoRows h hcmp'] at hfuel
  rcases fuel with _ | _ | fuel <;>
    simp [followLinks, readPage_twoRows h hcmp', hpage, hlost] at hfuel

end Broken

/-- Paging enumerates every list of rows exactly when the values of a property can all be compared
with each other. -/
theorem pages_enumerate_iff (values : String → Set Value) :
    (∀ entities filter orderby pageSize, AscendingIds entities → 1 ≤ pageSize →
      (∀ clause ∈ orderby.getD [], clause.property ≠ idProperty → ∀ entity ∈ entities, ∀ v,
        resolveProperty entity clause.property = some v → v ∈ values clause.property) →
      PagesExactly entities filter orderby pageSize) ↔
    ∀ prop, prop ≠ idProperty → ∀ v ∈ values prop, ∀ w ∈ values prop, Comparable v w := by
  constructor
  · intro hpages prop hprop
    have htwo : ∀ v ∈ values prop, ∀ w ∈ values prop,
        PagesExactly (twoRows prop v w) none (some [⟨prop, .asc⟩]) 1 := by
      intro v hv w hw
      refine hpages _ _ _ _ ascendingIds_twoRows le_rfl ?_
      simp [twoRows, hprop, hv, hw]
    have hself : ∀ v ∈ values prop, Comparable v v := by
      intro v hv
      have hexact := htwo v hv v hv
      cases v with
      | null => exact absurd hexact (not_pagesExactly_of_null hprop)
      | array _ => exact absurd hexact (not_pagesExactly_of_composite hprop rfl rfl)
      | object _ => exact absurd hexact (not_pagesExactly_of_composite hprop rfl rfl)
      | bool _ => rfl
      | number _ => trivial
      | string _ => trivial
    intro v hv w hw
    by_contra hvw
    exact not_pagesExactly_of_not_comparable hprop (hself v hv) (hself w hw) hvw (htwo v hv w hw)
  · intro hcmp entities filter orderby pageSize hids hsize hvalues
    refine pagesExactly_of_comparable hids (fun clause hclause => ?_) hsize
    by_cases hid : clause.property = idProperty
    · rw [hid]
      exact hids.comparableAt
    · have hmem : clause ∈ orderby.getD [] := by
        simp only [canonicalPaginationOrder] at hclause
        split at hclause
        · refine (List.mem_append.mp hclause).resolve_right fun hsingle => hid ?_
          rw [List.mem_singleton.mp hsingle]
        · exact hclause
      intro a ha b hb v w hv hw
      exact hcmp _ hid v (hvalues clause hmem hid a ha v hv) w (hvalues clause hmem hid b hb w hw)

end

/-! ### A codec for tokens -/

/-- A piece of the text of a value. -/
inductive Piece
  | null
  | bool (b : Bool)
  | number (n : Number)
  | string (s : String)
  | array (length : Nat)
  | object (length : Nat)

mutual

def pieces : Value → List Piece
  | .null => [.null]
  | .bool b => [.bool b]
  | .number n => [.number n]
  | .string s => [.string s]
  | .array vs => .array vs.length :: piecesList vs
  | .object members => .object members.length :: piecesMembers members

def piecesList : List Value → List Piece
  | [] => []
  | v :: vs => pieces v ++ piecesList vs

def piecesMembers : Members → List Piece
  | [] => []
  | (k, v) :: members => .string k :: (pieces v ++ piecesMembers members)

end

mutual

lemma pieces_append_inj : ∀ (v w : Value) (r s : List Piece),
    pieces v ++ r = pieces w ++ s → v = w ∧ r = s
  | .array vs, w, r, s, h => by
    cases w <;> simp only [pieces, List.cons_append, List.cons.injEq, Piece.array.injEq,
      reduceCtorEq, false_and, List.nil_append] at h
    obtain ⟨rfl, rfl⟩ := piecesList_append_inj vs _ r s h.1 h.2
    exact ⟨rfl, rfl⟩
  | .object members, w, r, s, h => by
    cases w <;> simp only [pieces, List.cons_append, List.cons.injEq, Piece.object.injEq,
      reduceCtorEq, false_and, List.nil_append] at h
    obtain ⟨rfl, rfl⟩ := piecesMembers_append_inj members _ r s h.1 h.2
    exact ⟨rfl, rfl⟩
  | .null, w, r, s, h => by cases w <;> simp_all [pieces]
  | .bool _, w, r, s, h => by cases w <;> simp_all [pieces]
  | .number _, w, r, s, h => by cases w <;> simp_all [pieces]
  | .string _, w, r, s, h => by cases w <;> simp_all [pieces]

lemma piecesList_append_inj : ∀ (vs ws : List Value) (r s : List Piece),
    vs.length = ws.length → piecesList vs ++ r = piecesList ws ++ s → vs = ws ∧ r = s
  | [], [], _, _, _, h => ⟨rfl, h⟩
  | v :: vs, w :: ws, r, s, hlen, h => by
    simp only [piecesList, List.append_assoc] at h
    obtain ⟨rfl, hrest⟩ := pieces_append_inj v w _ _ h
    obtain ⟨rfl, rfl⟩ := piecesList_append_inj vs ws r s (by simpa using hlen) hrest
    exact ⟨rfl, rfl⟩

lemma piecesMembers_append_inj : ∀ (m m' : Members) (r s : List Piece),
    m.length = m'.length → piecesMembers m ++ r = piecesMembers m' ++ s → m = m' ∧ r = s
  | [], [], _, _, _, h => ⟨rfl, h⟩
  | (k, v) :: m, (k', v') :: m', r, s, hlen, h => by
    simp only [piecesMembers, List.cons_append, List.append_assoc, List.cons.injEq,
      Piece.string.injEq] at h
    obtain ⟨rfl, h⟩ := h
    obtain ⟨rfl, hrest⟩ := pieces_append_inj v v' _ _ h
    obtain ⟨rfl, rfl⟩ := piecesMembers_append_inj m m' r s (by simpa using hlen) hrest
    exact ⟨rfl, rfl⟩

end

instance countableChar : Countable Char := Function.Injective.countable fun _ _ => Char.toNat_inj.mp

instance countableString : Countable String := Function.Injective.countable fun _ _ => String.toList_inj.mp

deriving instance Countable for Number, Piece

instance : Countable Value :=
  Function.Injective.countable fun v w (h : pieces v = pieces w) =>
    (pieces_append_inj v w [] [] (by rw [h])).1

/-- Tokens by number. -/
@[reducible] noncomputable def TokenCodec.numbered : TokenCodec :=
  have hexists := exists_injective_nat Value
  have hinj : Function.Injective fun v => String.ofList (List.replicate (hexists.choose v) '#') := by
    intro v w h
    have hlen := congrArg List.length (String.ofList_injective h)
    rw [List.length_replicate, List.length_replicate] at hlen
    exact hexists.choose_spec hlen
  { encode := _
    decode := Function.partialInv _
    decode_encode := Function.partialInv_left hinj }

/-- Lots are counted in numbers and nothing else is ever stored: every list of them is paged
exactly. -/
theorem numbered_lots_are_paged :
    @PagesExactly Floats.decimal TokenCodec.numbered
      (twoRows "Lot" (.number (.posInt 7)) (.number (.posInt 7))) none (some [⟨"Lot", .desc⟩]) 1 := by
  let := Floats.decimal
  let := TokenCodec.numbered
  refine (pages_enumerate_iff fun _ => {v | ∃ n, v = .number n}).mpr ?_ _ _ _ _ ascendingIds_twoRows
    le_rfl ?_
  · rintro prop - _ ⟨n, rfl⟩ _ ⟨m, rfl⟩
    trivial
  · rintro clause hclause hid entity hentity v hv
    obtain rfl : clause = ⟨"Lot", .desc⟩ := by simpa using hclause
    have hlot : ∃ id, entity = rowWith id "Lot" (.number (.posInt 7)) := by
      simp only [twoRows, List.mem_cons, List.not_mem_nil, or_false] at hentity
      exact hentity.elim (fun h => ⟨_, h⟩) fun h => ⟨_, h⟩
    obtain ⟨id, rfl⟩ := hlot
    rw [resolveProperty_rowWith (by decide)] at hv
    exact ⟨_, (Option.some.inj hv).symm⟩

/-- A page that ends on a checked row never shows an unchecked one. -/
theorem unchecked_row_is_lost :
    ¬ @PagesExactly Floats.decimal TokenCodec.numbered
      (twoRows "Checked" (.bool true) (.bool false)) none (some [⟨"Checked", .asc⟩]) 1 := by
  let := Floats.decimal
  let := TokenCodec.numbered
  exact not_pagesExactly_of_not_comparable (by decide) rfl rfl (by simp [Comparable])

end Temper.Odata
