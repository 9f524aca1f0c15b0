import Mathlib
import Temper.ApplicationData.Filter
import Temper.Lib.Checks
import Temper.Spec.Bundle.Digest

/-!
# Paging through module-data queries

A module reads a query in pages. The cursor of a page carries a digest of the query and the number
of candidates scanned so far, denied and non-matching ones included. A page ends when it is full,
when the scan budget is used up, or when the candidates are exhausted; only in the last case there
is no cursor to go on with.
-/

namespace Temper.ApplicationData

open Json Checks

/-! ### Queries and their digests -/

inductive Order
  | property (field : String) (direction : OrderDirection)
  | entityCommitSequence (direction : OrderDirection)
deriving DecidableEq, Repr

structure Query where
  entityType : String
  filter : Option Filter
  orderBy : List Order

def OrderDirection.label : OrderDirection → String
  | .asc => "asc"
  | .desc => "desc"

def Order.toJson : Order → Value
  | .property field direction =>
    .object [("field", .string field), ("direction", .string direction.label)]
  | .entityCommitSequence direction =>
    .object [("kind", .string "entity_commit_sequence"), ("direction", .string direction.label)]

def CompareOperator.label : CompareOperator → String
  | .eq => "eq"
  | .ne => "ne"
  | .lt => "lt"
  | .le => "le"
  | .gt => "gt"
  | .ge => "ge"

def intToJson (n : Int64) : Value :=
  match n.toInt with
  | .ofNat n => .number (.posInt n)
  | .negSucc n => .number (.negInt n)

/-- A scalar beside its kind. -/
def Scalar.toJson : Scalar → Value
  | .boolean b => tagged "boolean" (.bool b)
  | .int64 n => tagged "int64" (intToJson n)
  | .double d => tagged "double" (.number (.float d.text))
  | .string s => tagged "string" (.string s)
  | .guid s => tagged "guid" (.string s)
  | .dateTimeOffset s => tagged "date_time_offset" (.string s)
  | .decimal s => tagged "decimal" (.string s)
  | .enum typeName member =>
    tagged "enum" (.object [("type_name", .string typeName), ("member", .string member)])
where
  tagged (kind : String) (value : Value) : Value :=
    .object [("kind", .string kind), ("value", value)]

mutual

/-- A filter with its kind as the first member. -/
def Filter.toJson : Filter → Value
  | .compare field operator value =>
    .object [("kind", .string "compare"), ("field", .string field),
      ("operator", .string operator.label), ("value", value.toJson)]
  | .isNull field isNull =>
    .object [("kind", .string "is_null"), ("field", .string field), ("is_null", .bool isNull)]
  | .and operands =>
    .object [("kind", .string "and"), ("operands", .array (operandsToJson operands))]
  | .or operands =>
    .object [("kind", .string "or"), ("operands", .array (operandsToJson operands))]
  | .not operand => .object [("kind", .string "not"), ("operand", operand.toJson)]

def operandsToJson : List Filter → List Value
  | [] => []
  | operand :: operands => operand.toJson :: operandsToJson operands

end

def Query.toJson (q : Query) : Value :=
  .array [.string q.entityType, (q.filter.map Filter.toJson).getD .null,
    .array (q.orderBy.map Order.toJson)]

section Pages

variable (sha256 : List UInt8 → List UInt8)

def queryDigest (q : Query) : String :=
  Spec.Bundle.hex (sha256 (Spec.Bundle.utf8 q.toJson.toText))

/-! ### Cursors -/

inductive ErrorKind
  | invalidRequest
  | schemaMismatch
  | notFound
  | authorizationDenied
  | consistencyUnavailable
  | budgetExceeded
  | internal
deriving DecidableEq, Repr

structure ModuleDataError where
  kind : ErrorKind
  code : String
  message : String
deriving DecidableEq, Repr

def issueCursor (digest : String) (offset : Nat) : String :=
  "v1:" ++ digest ++ ":" ++ toString offset

def parseCursor (cursor : Option String) (digest : String) : Except ModuleDataError Nat :=
  match cursor with
  | none => .ok 0
  | some cursor =>
    let parts := cursor.toList.splitOn ':'
    if parts[0]? ≠ some "v1".toList ∨ parts[1]? ≠ some digest.toList then
      .error ⟨.invalidRequest, "CursorQueryMismatch", "cursor does not belong to this query"⟩
    else
      let offset := parts[2]?.bind fun value => Spec.parseUsize (String.ofList value)
      if parts[3]?.isSome ∨ offset.isNone then
        .error ⟨.invalidRequest, "InvalidCursor", "query cursor is invalid"⟩
      else .ok (offset.getD 0)

/-! ### A page -/

/-- Where the candidates of a query come from. -/
inductive Consistency
  | scopedAuthoritative
  | queryPlane
  | authoritativeFallback
deriving DecidableEq, Repr

structure EntityResponse where
  state : Value
  sequenceNr : Nat

/-- What an invocation finds: the candidates in their order, the entities and their canonical
values, and whether a value may be read. A list of candidates is shorter than `2 ^ 64`. The type may
be queried and listed (`authorize`); the grant and the schema have its filter and order fields
(`validate`). -/
structure Invocation where
  consistency : Consistency
  candidates : List String
  length_candidates : candidates.length < 2 ^ 64
  maxPageItems : Nat
  authorize : Query → Except ModuleDataError Unit
  validate : Query → Except ModuleDataError Unit
  getTargetEntity : String → Except ModuleDataError EntityResponse
  canonicalEntityValue : Value → Except ModuleDataError Members
  mayRead : String → Members → Bool

/-- All that is checked of a query, its page apart. -/
def Invocation.admits (inv : Invocation) (q : Query) : Except ModuleDataError Unit := do
  inv.authorize q
  inv.validate q

structure SequencedValue where
  value : Members
  sequence : Nat

structure PageRequest where
  limit : Nat
  cursor : Option String

structure Page where
  values : List SequencedValue
  nextCursor : Option String

/-- The candidates from an offset on. Without the query plane all of them are listed, read and
ordered first, which must not be more than the scan budget. -/
def Invocation.idsFrom (inv : Invocation) (scanBudget start : Nat) :
    Except ModuleDataError (List String) :=
  match inv.consistency with
  | .queryPlane => .ok ((inv.candidates.drop start).take (saturatingAdd scanBudget 1))
  | .scopedAuthoritative => do
    Checks.require (inv.candidates.length ≤ scanBudget) ⟨.budgetExceeded,
      "QueryFallbackBudgetExceeded", "scoped authoritative query exceeds the bounded scan budget"⟩
    Checks.forEach (fun id => (inv.getTargetEntity id).map fun _ => ()) inv.candidates
    pure (inv.candidates.drop start)
  | .authoritativeFallback => do
    Checks.require (inv.candidates.length ≤ scanBudget) ⟨.budgetExceeded,
      "QueryFallbackBudgetExceeded",
      "authoritative query fallback exceeds the bounded scan budget"⟩
    Checks.forEach (fun id => (inv.getTargetEntity id).map fun _ => ()) inv.candidates
    pure (inv.candidates.drop start)

/-- The values found and the number of candidates looked at. -/
structure Scan where
  values : List SequencedValue := []
  scanned : Nat := 0

variable [ScalarOrders]

/-- The scan loop. -/
def Invocation.scan (inv : Invocation) (filter : Option Filter) (limit : Nat) :
    List String → Scan → Except ModuleDataError Scan
  | [], s => .ok s
  | id :: ids, s => do
    let response ← inv.getTargetEntity id
    let object ← inv.canonicalEntityValue response.state
    if !inv.mayRead id object then inv.scan filter limit ids { s with scanned := s.scanned + 1 }
    else if filter.all (matchesFilter object) then
      let values := s.values ++ [⟨object, response.sequenceNr⟩]
      if values.length = limit then pure ⟨values, s.scanned + 1⟩
      else inv.scan filter limit ids ⟨values, s.scanned + 1⟩
    else inv.scan filter limit ids { s with scanned := s.scanned + 1 }

/-- A page under a given scan budget. -/
def Invocation.entityQueryWithin (inv : Invocation) (scanBudget : Nat) (q : Query)
    (page : PageRequest) : Except ModuleDataError Page := do
  inv.authorize q
  Checks.require (page.limit ≠ 0 ∧ page.limit ≤ inv.maxPageItems)
    ⟨.budgetExceeded, "PageBudgetExceeded", "query page limit exceeds the module grant"⟩
  inv.validate q
  let digest := queryDigest sha256 q
  let start ← parseCursor page.cursor digest
  let ids ← inv.idsFrom scanBudget start
  let hasUnscannedCandidate := ids.length > scanBudget
  let s ← inv.scan q.filter page.limit (ids.take scanBudget) {}
  let nextOffset := saturatingAdd start s.scanned
  pure ⟨s.values,
    if hasUnscannedCandidate ∨ s.values.length = page.limit then
      some (issueCursor digest nextOffset)
    else none⟩

/-- The scan budget is eight times the page budget of the grant. -/
def Invocation.entityQuery (inv : Invocation) (q : Query) (page : PageRequest) :
    Except ModuleDataError Page :=
  inv.entityQueryWithin sha256 (min (inv.maxPageItems * 8) u64Max) q page

end Pages

/-! ### The digest identifies the query -/

lemma intToJson_inj {m n : Int64} (h : intToJson m = intToJson n) : m = n := by
  refine Int64.toInt_inj.mp ?_
  unfold intToJson at h
  cases hm : m.toInt <;> cases hn : n.toInt <;> simp_all

lemma Double.ext_text {d d' : Double} (h : d.text = d'.text) : d = d' := by
  cases d
  cases d'
  cases h
  rfl

lemma Scalar.toJson_inj {a b : Scalar} (h : a.toJson = b.toJson) : a = b := by
  cases a <;> cases b <;> simp [toJson, toJson.tagged] at h ⊢
  case boolean.boolean => exact h
  case int64.int64 => exact intToJson_inj h
  case double.double => exact Double.ext_text h
  all_goals exact h

lemma CompareOperator.label_inj {a b : CompareOperator} (h : a.label = b.label) : a = b := by
  cases a <;> cases b <;> first | rfl | exact absurd h (by decide)

mutual

lemma Filter.toJson_inj : ∀ {a b : Filter}, a.toJson = b.toJson → a = b
  | .compare field operator value, b, h => by
    cases b <;> simp [Filter.toJson] at h
    obtain ⟨rfl, hoperator, hvalue⟩ := h
    rw [CompareOperator.label_inj hoperator, Scalar.toJson_inj hvalue]
  | .isNull field isNull, b, h => by
    cases b <;> simp [Filter.toJson] at h
    obtain ⟨rfl, rfl⟩ := h
    rfl
  | .and operands, b, h => by
    cases b <;> simp [Filter.toJson] at h
    rw [operandsToJson_inj h]
  | .or operands, b, h => by
    cases b <;> simp [Filter.toJson] at h
    rw [operandsToJson_inj h]
  | .not operand, b, h => by
    cases b <;> simp [Filter.toJson] at h
    rw [Filter.toJson_inj h]

lemma operandsToJson_inj : ∀ {as bs : List Filter}, operandsToJson as = operandsToJson bs → as = bs
  | [], [], _ => rfl
  | [], b :: bs, h => by simp [operandsToJson] at h
  | a :: as, [], h => by simp [operandsToJson] at h
  | a :: as, b :: bs, h => by
    rw [operandsToJson, operandsToJson, List.cons.injEq] at h
    rw [Filter.toJson_inj h.1, operandsToJson_inj h.2]

end

lemma Order.toJson_inj {a b : Order} (h : a.toJson = b.toJson) : a = b := by
  have hlabel : ∀ d d' : OrderDirection, d.label = d'.label → d = d' := by
    intro d d' h
    cases d <;> cases d' <;> first | rfl | exact absurd h (by decide)
  cases a <;> cases b <;> simp [toJson] at h ⊢
  case property.property => exact ⟨h.1, hlabel _ _ h.2⟩
  case entityCommitSequence.entityCommitSequence => exact hlabel _ _ h

lemma Filter.toJson_ne_null (f : Filter) : f.toJson ≠ .null := by
  cases f <;> simp [toJson]

lemma Query.toJson_inj {q q' : Query} (h : q.toJson = q'.toJson) : q = q' := by
  obtain ⟨entityType, filter, orderBy⟩ := q
  obtain ⟨entityType', filter', orderBy'⟩ := q'
  simp only [toJson, Value.array.injEq, List.cons.injEq, Value.string.injEq, and_true] at h
  obtain ⟨rfl, hfilter, horder⟩ := h
  have hfilter' : filter = filter' := by
    cases filter <;> cases filter' <;>
      simp only [Option.map_none, Option.map_some, Option.getD_none, Option.getD_some] at hfilter
    · rfl
    · exact absurd hfilter.symm (Filter.toJson_ne_null _)
    · exact absurd hfilter (Filter.toJson_ne_null _)
    · rw [Filter.toJson_inj hfilter]
  have horder' : orderBy = orderBy' :=
    List.map_injective_iff.mpr (fun _ _ => Order.toJson_inj) horder
  rw [hfilter', horder']

lemma Scalar.printed_toJson (a : Scalar) : a.toJson.Printed := by
  cases a with
  | int64 n =>
    simp only [toJson, toJson.tagged, Value.Printed, Value.PrintedMembers, true_and, and_true]
    unfold intToJson
    split <;> trivial
  | double d =>
    simp only [toJson, toJson.tagged, Value.Printed, Value.PrintedMembers, true_and, and_true]
    exact d.printed
  | _ => simp [toJson, toJson.tagged, Value.Printed, Value.PrintedMembers]

mutual

lemma Filter.printed_toJson : ∀ f : Filter, f.toJson.Printed
  | .compare _ _ value => by
    simpa [Filter.toJson, Value.Printed, Value.PrintedMembers] using value.printed_toJson
  | .isNull _ _ => by simp [Filter.toJson, Value.Printed, Value.PrintedMembers]
  | .and operands => by
    simpa [Filter.toJson, Value.Printed, Value.PrintedMembers] using
      printedItems_operandsToJson operands
  | .or operands => by
    simpa [Filter.toJson, Value.Printed, Value.PrintedMembers] using
      printedItems_operandsToJson operands
  | .not operand => by
    simpa [Filter.toJson, Value.Printed, Value.PrintedMembers] using
      Filter.printed_toJson operand

lemma printedItems_operandsToJson : ∀ operands : List Filter,
    Value.PrintedItems (operandsToJson operands)
  | [] => trivial
  | operand :: operands => ⟨Filter.printed_toJson operand, printedItems_operandsToJson operands⟩

end

lemma Query.printed_toJson (q : Query) : q.toJson.Printed := by
  have horder : Value.PrintedItems (q.orderBy.map Order.toJson) := by
    induction q.orderBy with
    | nil => trivial
    | cons order orders ih =>
      refine ⟨?_, ih⟩
      cases order <;> simp [Order.toJson, Value.Printed, Value.PrintedMembers]
  have hfilter : ((q.filter.map Filter.toJson).getD .null).Printed := by
    cases q.filter with
    | none => trivial
    | some f => exact f.printed_toJson
  exact ⟨trivial, hfilter, horder, trivial⟩

lemma queryDigest_inj {sha256 : List UInt8 → List UInt8} (hsha : Function.Injective sha256)
    {q q' : Query} (h : queryDigest sha256 q = queryDigest sha256 q') : q = q' := by
  have hbytes := hsha (Spec.Bundle.hex_inj h)
  exact Query.toJson_inj
    (Value.toText_inj q.printed_toJson q'.printed_toJson (Spec.Bundle.utf8_inj.mp hbytes))

/-! ### Cursors read back -/

lemma colon_not_mem_hex (bytes : List UInt8) : ':' ∉ (Spec.Bundle.hex bytes).toList := by
  have hdigit : ∀ n < 16, Nat.digitChar n ≠ ':' := by decide
  rw [Spec.Bundle.hex, String.toList_ofList, List.mem_flatMap]
  rintro ⟨b, -, hb⟩
  have hlt := b.toNat_lt
  simp only [Spec.Bundle.hexByte, List.mem_cons, List.not_mem_nil, or_false] at hb
  rcases hb with hb | hb
  · exact hdigit _ (by omega) hb.symm
  · exact hdigit _ (by omega) hb.symm

lemma colon_not_mem_toString (n : Nat) : ':' ∉ (toString n).toList := fun h =>
  absurd (Spec.isDigit_of_mem_toString h) (by decide)

lemma splitOn_issueCursor {digest : String} (hdigest : ':' ∉ digest.toList) (offset : Nat) :
    (issueCursor digest offset).toList.splitOn ':' =
      ["v1".toList, digest.toList, (toString offset).toList] := by
  have htext : (issueCursor digest offset).toList =
      "v1".toList ++ ':' :: (digest.toList ++ ':' :: (toString offset).toList) := by
    simp [issueCursor]
  rw [htext, List.splitOn_append_cons_self_of_not_mem (by decide),
    List.splitOn_append_cons_self_of_not_mem hdigest,
    List.splitOn_eq_singleton (colon_not_mem_toString offset)]

lemma parseCursor_issueCursor {digest : String} (hdigest : ':' ∉ digest.toList) {offset : Nat}
    (hoffset : offset < 2 ^ 64) :
    parseCursor (some (issueCursor digest offset)) digest = .ok offset := by
  have hparse : Spec.parseUsize (String.ofList (toString offset).toList) = some offset := by
    rw [String.ofList_toList]
    exact Spec.parseUsize_toString hoffset
  simp only [parseCursor, splitOn_issueCursor hdigest, List.getElem?_cons_zero,
    List.getElem?_cons_succ, List.getElem?_nil, Option.bind_some, hparse]
  simp

/-- A cursor of one digest is refused under another one. -/
lemma parseCursor_issueCursor_ne {digest digest' : String} (hdigest : ':' ∉ digest.toList)
    (hne : digest ≠ digest') (offset : Nat) :
    parseCursor (some (issueCursor digest offset)) digest' = .error
      ⟨.invalidRequest, "CursorQueryMismatch", "cursor does not belong to this query"⟩ := by
  have hne' : digest.toList ≠ digest'.toList := fun h => hne (String.toList_inj.mp h)
  simp [parseCursor, splitOn_issueCursor hdigest, hne']

/-! ### What a page holds -/

section Exact

variable [ScalarOrders] (inv : Invocation) (filter : Option Filter)

/-- What a candidate adds to the answer: nothing unless it may be read and matches. -/
def Invocation.answer (id : String) : Option SequencedValue := do
  let response ← (inv.getTargetEntity id).toOption
  let object ← (inv.canonicalEntityValue response.state).toOption
  if inv.mayRead id object ∧ filter.all (matchesFilter object) then
    some ⟨object, response.sequenceNr⟩
  else none

/-- Every candidate is there and has a canonical value. -/
def Invocation.Readable : Prop :=
  ∀ id ∈ inv.candidates, ∃ response object, inv.getTargetEntity id = .ok response ∧
    inv.canonicalEntityValue response.state = .ok object

variable {inv filter}

/-- One turn of the scan. -/
lemma scan_cons {id : String} {ids : List String} {limit : Nat} {s : Scan}
    (h : ∃ response object, inv.getTargetEntity id = .ok response ∧
      inv.canonicalEntityValue response.state = .ok object) :
    inv.scan filter limit (id :: ids) s =
      let values := s.values ++ (inv.answer filter id).toList
      if (inv.answer filter id).isSome ∧ values.length = limit then .ok ⟨values, s.scanned + 1⟩
      else inv.scan filter limit ids ⟨values, s.scanned + 1⟩ := by
  obtain ⟨response, object, hresponse, hobject⟩ := h
  have hanswer : inv.answer filter id =
      if inv.mayRead id object ∧ filter.all (matchesFilter object) then
        some ⟨object, response.sequenceNr⟩
      else none := by
    simp [Invocation.answer, hresponse, hobject, Except.toOption]
  have hscan : inv.scan filter limit (id :: ids) s =
      if !inv.mayRead id object then inv.scan filter limit ids { s with scanned := s.scanned + 1 }
      else if filter.all (matchesFilter object) then
        let values : List SequencedValue := s.values ++ [⟨object, response.sequenceNr⟩]
        if values.length = limit then .ok ⟨values, s.scanned + 1⟩
        else inv.scan filter limit ids ⟨values, s.scanned + 1⟩
      else inv.scan filter limit ids { s with scanned := s.scanned + 1 } := by
    rw [Invocation.scan, hresponse]
    simp only [bind, Except.bind, hobject, pure, Except.pure]
  rw [hscan, hanswer]
  by_cases hread : inv.mayRead id object <;> by_cases hmatch : filter.all (matchesFilter object) <;>
    simp [hread, hmatch]

/-- The scan looks at a first part of the candidates: up to the one that fills the page, or at all
of them. -/
lemma scan_spec (filter : Option Filter) {limit : Nat} {ids : List String} {s : Scan}
    (hread : ∀ id ∈ ids, ∃ response object, inv.getTargetEntity id = .ok response ∧
      inv.canonicalEntityValue response.state = .ok object)
    (hroom : s.values.length < limit) :
    ∃ done rest, ids = done ++ rest ∧
      inv.scan filter limit ids s =
        .ok ⟨s.values ++ done.filterMap (inv.answer filter), s.scanned + done.length⟩ ∧
      ((s.values ++ done.filterMap (inv.answer filter)).length = limit ∧ done ≠ [] ∨
        rest = [] ∧ (s.values ++ done.filterMap (inv.answer filter)).length < limit) := by
  induction ids generalizing s with
  | nil => exact ⟨[], [], rfl, by simp [Invocation.scan], .inr ⟨rfl, by simpa using hroom⟩⟩
  | cons id ids ih =>
    rw [scan_cons (hread id List.mem_cons_self)]
    set values := s.values ++ (inv.answer filter id).toList with hvalues
    have hone : s.values ++ [id].filterMap (inv.answer filter) = values := by
      rw [hvalues]
      cases hanswer : inv.answer filter id <;> simp [hanswer]
    by_cases hfull : (inv.answer filter id).isSome ∧ values.length = limit
    · refine ⟨[id], ids, rfl, ?_, .inl ⟨by rw [hone]; exact hfull.2, by simp⟩⟩
      rw [hone]
      simp only [hfull, and_self, if_true]
      rfl
    · have hroom' : values.length < limit := by
        rw [hvalues] at hfull ⊢
        cases hanswer : inv.answer filter id with
        | none => simpa using hroom
        | some v =>
          simp only [hanswer, Option.isSome_some, true_and, Option.toList_some, List.length_append,
            List.length_singleton] at hfull ⊢
          omega
      obtain ⟨done, rest, rfl, hscan, hend⟩ := ih (s := ⟨values, s.scanned + 1⟩)
        (fun id' h => hread id' (List.mem_cons_of_mem _ h)) hroom'
      have hcons : s.values ++ (id :: done).filterMap (inv.answer filter) =
          values ++ done.filterMap (inv.answer filter) := by
        rw [← hone, ← List.singleton_append, List.filterMap_append, List.append_assoc]
      refine ⟨id :: done, rest, rfl, ?_, ?_⟩
      · have hcount : s.scanned + 1 + done.length = s.scanned + (done.length + 1) := by omega
        simp only [if_neg hfull]
        rw [hscan, hcons, List.length_cons, ← hcount]
      · rw [hcons]
        exact hend.imp_left fun h => ⟨h.1, by simp⟩

omit [ScalarOrders] in
/-- The candidates a page sees: a window of the scan budget, and whether there is more. -/
lemma exists_idsFrom {scanBudget : Nat} (hread : inv.Readable)
    (hshort : inv.consistency ≠ .queryPlane → inv.candidates.length ≤ scanBudget) (start : Nat) :
    ∃ ids, inv.idsFrom scanBudget start = .ok ids ∧
      ids.take scanBudget = (inv.candidates.drop start).take scanBudget ∧
      (ids.length > scanBudget ↔ (inv.candidates.drop start).length > scanBudget) := by
  have hlisted : ∀ e : ModuleDataError, inv.consistency ≠ .queryPlane →
      (do
        Checks.require (inv.candidates.length ≤ scanBudget) e
        Checks.forEach (fun id => (inv.getTargetEntity id).map fun _ => ()) inv.candidates
        pure (inv.candidates.drop start)) = Except.ok (inv.candidates.drop start) := by
    intro e hne
    simp only [bind_ok_iff, require_ok_iff, forEach_ok_iff]
    refine ⟨(), hshort hne, (), fun id hid => ?_, rfl⟩
    obtain ⟨response, -, hresponse, -⟩ := hread id hid
    rw [hresponse]
    rfl
  unfold Invocation.idsFrom
  cases hpath : inv.consistency with
  | scopedAuthoritative =>
    exact ⟨_, hlisted _ (by rw [hpath]; decide), rfl, Iff.rfl⟩
  | authoritativeFallback =>
    exact ⟨_, hlisted _ (by rw [hpath]; decide), rfl, Iff.rfl⟩
  | queryPlane =>
    refine ⟨_, rfl, ?_⟩
    have hlength : (inv.candidates.drop start).length ≤ u64Max := by
      have hlt := inv.length_candidates
      rw [List.length_drop, u64Max]
      omega
    rcases le_total (scanBudget + 1) u64Max with hfits | hlarge
    · rw [saturatingAdd, min_eq_left hfits, List.take_take, List.length_take]
      refine ⟨by rw [min_eq_left (Nat.le_succ _)], ?_⟩
      omega
    · rw [saturatingAdd, min_eq_right hlarge, List.take_of_length_le hlength]
      exact ⟨rfl, Iff.rfl⟩

variable {sha256 : List UInt8 → List UInt8} {q : Query} {limit scanBudget : Nat}

/-- A page holds the answers among the next candidates; it has a cursor behind them, or there are no
more. -/
lemma exists_page (hadmits : inv.admits q = .ok ()) (hread : inv.Readable) (hlimit : 0 < limit)
    (hmax : limit ≤ inv.maxPageItems) (hbudget : 0 < scanBudget)
    (hshort : inv.consistency ≠ .queryPlane → inv.candidates.length ≤ scanBudget)
    {cursor : Option String} {start : Nat}
    (hcursor : parseCursor cursor (queryDigest sha256 q) = .ok start) :
    ∃ page, inv.entityQueryWithin sha256 scanBudget q ⟨limit, cursor⟩ = .ok page ∧
      ((∃ m, 0 < m ∧ start + m ≤ inv.candidates.length ∧
          page.values = ((inv.candidates.drop start).take m).filterMap (inv.answer q.filter) ∧
          page.nextCursor = some (issueCursor (queryDigest sha256 q) (start + m))) ∨
        page.values = (inv.candidates.drop start).filterMap (inv.answer q.filter) ∧
          page.nextCursor = none) := by
  obtain ⟨ids, hids, hwindow, hmore⟩ := exists_idsFrom hread hshort start
  have hreadWindow : ∀ id ∈ ids.take scanBudget, ∃ response object,
      inv.getTargetEntity id = .ok response ∧
        inv.canonicalEntityValue response.state = .ok object := by
    intro id hid
    rw [hwindow] at hid
    exact hread id (List.mem_of_mem_drop (List.mem_of_mem_take hid))
  obtain ⟨done, rest, hsplit, hscan, hend⟩ :=
    scan_spec q.filter (s := {}) hreadWindow hlimit
  simp only [List.nil_append, Nat.zero_add] at hscan hend
  -- the part of the candidates that was scanned
  have hdone : done = (inv.candidates.drop start).take done.length := by
    have hprefix : done <+: inv.candidates.drop start :=
      (List.prefix_append done rest).trans
        (hsplit ▸ hwindow ▸ List.take_prefix scanBudget _)
    exact (List.prefix_iff_eq_take.mp hprefix)
  have hdoneLength : done.length ≤ inv.candidates.length - start := by
    have hle := congrArg List.length hdone
    rw [List.length_take, List.length_drop] at hle
    omega
  set digest := queryDigest sha256 q with hdigest
  set values := done.filterMap (inv.answer q.filter) with hvalues
  have hpage : inv.entityQueryWithin sha256 scanBudget q ⟨limit, cursor⟩ = .ok ⟨values,
      if ids.length > scanBudget ∨ values.length = limit then
        some (issueCursor digest (saturatingAdd start done.length))
      else none⟩ := by
    simp only [Invocation.admits, bind_ok_iff] at hadmits
    obtain ⟨_, hauthorized, hvalid⟩ := hadmits
    simp only [Invocation.entityQueryWithin, bind_ok_iff, require_ok_iff]
    exact ⟨(), hauthorized, (), ⟨by omega, hmax⟩, (), hvalid, start, hcursor, ids, hids, _, hscan,
      rfl⟩
  refine ⟨_, hpage, ?_⟩
  have hoffset : done ≠ [] → start + done.length ≤ inv.candidates.length ∧
      saturatingAdd start done.length = start + done.length := by
    intro hne
    have hpos := List.length_pos_of_ne_nil hne
    have hlt := inv.length_candidates
    refine ⟨by omega, ?_⟩
    rw [saturatingAdd, u64Max]
    omega
  have hfirst : values = ((inv.candidates.drop start).take done.length).filterMap
      (inv.answer q.filter) := by
    rw [← hdone]
  by_cases hfull : values.length = limit
  · left
    have hne : done ≠ [] := by
      rintro rfl
      simp only [hvalues, List.filterMap_nil, List.length_nil] at hfull
      omega
    obtain ⟨hle, hsum⟩ := hoffset hne
    refine ⟨done.length, List.length_pos_of_ne_nil hne, hle, hfirst, ?_⟩
    simp only [hfull, or_true, if_true, hsum]
  · have hrest : rest = [] := (hend.resolve_left fun h => hfull h.1).1
    subst hrest
    rw [List.append_nil, hwindow] at hsplit
    by_cases hunscanned : ids.length > scanBudget
    · left
      have hlength : done.length = scanBudget := by
        have hlen := hmore.mp hunscanned
        rw [← hsplit, List.length_take]
        omega
      have hne : done ≠ [] := List.ne_nil_of_length_pos (by omega)
      obtain ⟨hle, hsum⟩ := hoffset hne
      refine ⟨done.length, List.length_pos_of_ne_nil hne, hle, hfirst, ?_⟩
      simp only [hunscanned, true_or, if_true, hsum]
    · right
      have hall : done = inv.candidates.drop start := by
        rw [← hsplit, List.take_of_length_le (by omega)]
      refine ⟨by rw [hvalues, hall], ?_⟩
      simp only [hunscanned, hfull, or_self, if_false]

/-- Reading on from a cursor, page by page, until a page has no cursor. -/
inductive Follows (run : Option String → Except ModuleDataError Page) :
    Option String → List SequencedValue → Prop
  | last {cursor : Option String} {values : List SequencedValue}
      (h : run cursor = .ok ⟨values, none⟩) : Follows run cursor values
  | more {cursor : Option String} {values : List SequencedValue} {next : String}
      {rest : List SequencedValue} (h : run cursor = .ok ⟨values, some next⟩)
      (hrest : Follows run (some next) rest) : Follows run cursor (values ++ rest)

omit [ScalarOrders] in
lemma Follows.unique {run : Option String → Except ModuleDataError Page} {cursor : Option String}
    {xs ys : List SequencedValue} (hx : Follows run cursor xs) (hy : Follows run cursor ys) :
    xs = ys := by
  induction hx generalizing ys with
  | last h =>
    cases hy with
    | last h' =>
      rw [h, Except.ok.injEq, Page.mk.injEq] at h'
      exact h'.1
    | more h' _ =>
      rw [h, Except.ok.injEq, Page.mk.injEq] at h'
      exact absurd h'.2 (by simp)
  | more h _ ih =>
    cases hy with
    | last h' =>
      rw [h, Except.ok.injEq, Page.mk.injEq] at h'
      exact absurd h'.2 (by simp)
    | more h' hrest =>
      rw [h, Except.ok.injEq, Page.mk.injEq, Option.some.injEq] at h'
      obtain ⟨rfl, rfl⟩ := h'
      rw [ih hrest]

/-- From every offset on the pages hold what is left of the answer. -/
lemma follows_from (hadmits : inv.admits q = .ok ()) (hread : inv.Readable) (hlimit : 0 < limit)
    (hmax : limit ≤ inv.maxPageItems) (hbudget : 0 < scanBudget)
    (hshort : inv.consistency ≠ .queryPlane → inv.candidates.length ≤ scanBudget)
    {cursor : Option String} {start : Nat}
    (hcursor : parseCursor cursor (queryDigest sha256 q) = .ok start) :
    Follows (fun cursor => inv.entityQueryWithin sha256 scanBudget q ⟨limit, cursor⟩) cursor
      ((inv.candidates.drop start).filterMap (inv.answer q.filter)) := by
  -- a page with a cursor moves the offset towards the end of the candidates
  induction hremaining : inv.candidates.length - start using Nat.strong_induction_on
    generalizing cursor start with
  | _ remaining ih =>
    obtain ⟨⟨values, nextCursor⟩, hpage, ⟨m, hm, hle, hvalues, hnext⟩ | ⟨hvalues, hnext⟩⟩ :=
      exists_page hadmits hread hlimit hmax hbudget hshort hcursor
    · simp only at hvalues hnext
      subst hvalues hnext
      have hparse : parseCursor (some (issueCursor (queryDigest sha256 q) (start + m)))
          (queryDigest sha256 q) = .ok (start + m) :=
        parseCursor_issueCursor (colon_not_mem_hex _) (by have := inv.length_candidates; omega)
      have hrest := ih (inv.candidates.length - (start + m)) (by omega) hparse rfl
      have hsplit : (inv.candidates.drop start).filterMap (inv.answer q.filter) =
          ((inv.candidates.drop start).take m).filterMap (inv.answer q.filter) ++
            (inv.candidates.drop (start + m)).filterMap (inv.answer q.filter) := by
        rw [← List.filterMap_append, ← List.drop_drop, List.take_append_drop]
      rw [hsplit]
      exact .more hpage hrest
    · simp only at hvalues hnext
      subst hvalues hnext
      exact .last hpage

/-- The cursor of a page carries the digest of its query. -/
lemma eq_issueCursor_of_page {page : PageRequest} {values : List SequencedValue} {cursor : String}
    (h : inv.entityQueryWithin sha256 scanBudget q page = .ok ⟨values, some cursor⟩) :
    ∃ offset, cursor = issueCursor (queryDigest sha256 q) offset := by
  simp only [Invocation.entityQueryWithin, bind_ok_iff] at h
  obtain ⟨-, -, -, -, -, -, start, -, ids, -, s, -, hpage⟩ := h
  have hcursor := congrArg Page.nextCursor (Except.ok.inj hpage)
  simp only at hcursor
  split at hcursor
  · exact ⟨_, (Option.some.inj hcursor).symm⟩
  · exact absurd hcursor (by simp)

/-- A query with a cursor that does not parse is refused. -/
lemma exists_error_of_parseCursor {page : PageRequest} {e : ModuleDataError}
    (h : parseCursor page.cursor (queryDigest sha256 q) = .error e) :
    ∃ e', inv.entityQueryWithin sha256 scanBudget q page = .error e' := by
  cases hrun : inv.entityQueryWithin sha256 scanBudget q page with
  | error e' => exact ⟨e', rfl⟩
  | ok result =>
    simp only [Invocation.entityQueryWithin, bind_ok_iff] at hrun
    obtain ⟨-, -, -, -, -, -, start, hstart, -⟩ := hrun
    rw [h] at hstart
    exact absurd hstart (by simp)

/-- Reading page by page from the start ends, and the pages together hold exactly the candidates
that may be read and match, in their order. A cursor is good for its own query only. -/
theorem entityQuery_pages_exact (hadmits : inv.admits q = .ok ()) (hread : inv.Readable)
    (hlimit : 0 < limit) (hmax : limit ≤ inv.maxPageItems) (hbudget : 0 < scanBudget)
    (hshort : inv.consistency ≠ .queryPlane → inv.candidates.length ≤ scanBudget) :
    (∀ listed, Follows (fun cursor => inv.entityQueryWithin sha256 scanBudget q ⟨limit, cursor⟩)
        none listed ↔ listed = inv.candidates.filterMap (inv.answer q.filter)) ∧
      (Function.Injective sha256 → ∀ page values cursor,
        inv.entityQueryWithin sha256 scanBudget q page = .ok ⟨values, some cursor⟩ →
        ∀ q', q' ≠ q → ∀ (inv' : Invocation) (budget' limit' : Nat),
          ∃ e, inv'.entityQueryWithin sha256 budget' q' ⟨limit', some cursor⟩ = .error e) := by
  constructor
  · have hstart : parseCursor none (queryDigest sha256 q) = .ok 0 := rfl
    have hall := follows_from hadmits hread hlimit hmax hbudget hshort hstart
    rw [List.drop_zero] at hall
    intro listed
    constructor
    · intro h
      exact h.unique hall
    · rintro rfl
      exact hall
  · intro hsha page values cursor hpage q' hne inv' budget' limit'
    obtain ⟨offset, rfl⟩ := eq_issueCursor_of_page hpage
    have hdigest : queryDigest sha256 q ≠ queryDigest sha256 q' := fun h =>
      hne (queryDigest_inj hsha h).symm
    exact exists_error_of_parseCursor
      (parseCursor_issueCursor_ne (colon_not_mem_hex _) hdigest offset)

end Exact

/-- Four tasks, of which the second may not be read and the third does not match. -/
def backlog : Invocation where
  consistency := .queryPlane
  candidates := ["t-1", "t-2", "t-3", "t-4"]
  length_candidates := by decide
  maxPageItems := 1
  authorize _ := .ok ()
  validate _ := .ok ()
  getTargetEntity id := .ok ⟨.string id, 7⟩
  canonicalEntityValue
    | .string id => .ok [("Open", .bool (id != "t-3")), ("Id", .string id)]
    | state => .ok [("Id", state)]
  mayRead id _ := id != "t-2"

def openTasks : Query := ⟨"Task", some (.compare "Open" .eq (.boolean true)), []⟩

theorem open_tasks_paged :
    (@Follows (fun cursor => @Invocation.entityQuery id ScalarOrders.none backlog openTasks
        ⟨1, cursor⟩) none
      [⟨[("Open", .bool true), ("Id", .string "t-1")], 7⟩,
        ⟨[("Open", .bool true), ("Id", .string "t-4")], 7⟩]) ∧
    ∃ e, @Invocation.entityQuery id ScalarOrders.none backlog { openTasks with filter := none }
      ⟨1, some (issueCursor (queryDigest id openTasks) 1)⟩ = .error e := by
  have hread : backlog.Readable := fun id _ => ⟨_, _, rfl, rfl⟩
  have hexact := @entityQuery_pages_exact ScalarOrders.none backlog id openTasks 1 8 rfl hread
    (by decide) (by decide) (by decide) (fun h => absurd rfl h)
  refine ⟨(hexact.1 _).mpr rfl, ?_⟩
  exact hexact.2 Function.injective_id ⟨1, none⟩ _ _ rfl _ (by simp [openTasks]) backlog 8 1

end Temper.ApplicationData
