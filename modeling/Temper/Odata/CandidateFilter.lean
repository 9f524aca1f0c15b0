import Mathlib
import Temper.Odata.FilterSql

/-!
# Candidate narrowing

A pushed clause must hold of every entity the filter accepts. Filters resolve a property at the top
level of the body first, the index has rows for the members of `fields` only: a top-level member
other than the status is found by the filter and missed by the clause, unless `fields` repeats it.
-/

namespace Temper.Odata

open Json

/-! ### Placeholders -/

/-- A context whose next placeholder is the one after its parameters. -/
def TranslateCtx.Numbered (ctx : TranslateCtx) : Prop := ctx.nextParam = 3 + ctx.params.length

/-- A clause built between two contexts: the parameters grow, and its placeholders are the new
ones, in order. -/
structure Extends (ctx ctx' : TranslateCtx) (c : Sql) : Prop where
  numbered : ctx'.Numbered
  grows : ctx.params <+: ctx'.params
  placeholders : c.placeholders =
    List.range' ctx.nextParam (ctx'.params.length - ctx.params.length)

lemma boundParam_of_prefix {pre rest params : List String} {value : String}
    (h : pre ++ value :: rest <+: params) : boundParam params (3 + pre.length) = some value := by
  obtain ⟨tail, rfl⟩ := h
  rw [boundParam, if_pos (by omega), show 3 + pre.length - 3 = pre.length by omega]
  simp

section

variable {ctx ctx₁ ctx₂ : TranslateCtx} {l r : Sql}

/-- Two clauses built one after the other. -/
lemma Extends.both (hctx : ctx.Numbered) (hl : Extends ctx ctx₁ l) (hr : Extends ctx₁ ctx₂ r) :
    Extends ctx ctx₂ (.and l r) := by
  have hgrows := hl.grows.trans hr.grows
  refine ⟨hr.numbered, hgrows, ?_⟩
  have hlen := hl.grows.length_le
  have hlen' := hr.grows.length_le
  have hn := hl.numbered
  rw [TranslateCtx.Numbered] at hctx hn
  rw [Sql.placeholders, hl.placeholders, hr.placeholders,
    show ctx₁.nextParam = ctx.nextParam + (ctx₁.params.length - ctx.params.length) by omega,
    List.range'_append_1]
  congr 1
  omega

end

/-! ### Leaves -/

section

variable [Floats]

/-- The body of an entity with this status and these fields. -/
structure IsBody (body : Value) (status : String) (fields : Members) : Prop where
  entityId : ∃ id, body.get "entity_id" = some (.string id)
  entityType : ∃ entityType, body.get "entity_type" = some (.string entityType)
  status : body.get "status" = some (.string status)
  noAlias : body.get "Status" = none
  fields : body.get "fields" = some (.object fields)

/-- Its rows in an up-to-date projection. -/
def projected (status : String) (fields : Members) : ProjectedEntity :=
  ⟨status, indexedProjectionFields status (.object fields)⟩

/-- The values an equality is pushed for. -/
def isPushable : Value → Bool
  | .bool _ => true
  | .string s => decide (byteLength s ≤ maxIndexableFieldValueBytes)
  | _ => false

/-- A property the index can answer for: if it is a top-level member with a value that is compared
by a pushed equality, `fields` has a row for it. -/
def Indexed (body : Value) (status : String) (fields : Members) (prop : String) : Prop :=
  ∀ v, body.get prop = some v → isPushable v = true →
    (prop, scalarToText v) ∈ indexedProjectionFields status (.object fields)

variable {body : Value} {status : String} {fields : Members} {prop : String}

omit [Floats] in
lemma IsBody.resolve_status (hbody : IsBody body status fields)
    (hprop : isStatusProperty prop = true) : resolveProperty body prop = some (.string status) := by
  rw [isStatusProperty, Bool.or_eq_true, decide_eq_true_iff, decide_eq_true_iff] at hprop
  rcases hprop with rfl | rfl
  · simp [resolveProperty, statusMember, hbody.status, hbody.noAlias]
  · simp [resolveProperty, statusMember, hbody.status]

omit [Floats] in
lemma IsBody.resolve_field (hbody : IsBody body status fields)
    (hprop : isStatusProperty prop = false) :
    resolveProperty body prop = (body.get prop).or (IndexMap.get fields prop) := by
  rw [isStatusProperty, Bool.or_eq_false_iff, decide_eq_false_iff_not, decide_eq_false_iff_not]
    at hprop
  rw [resolveProperty, if_neg hprop.1, if_neg hprop.2, hbody.fields]
  rfl

omit [Floats] in
/-- A field with a pushable value has a row. -/
lemma mem_indexedProjectionFields {v : Value} (hprop : isStatusProperty prop = false)
    (hv : isPushable v = true) (hget : IndexMap.get fields prop = some v) :
    (prop, scalarToText v) ∈ indexedProjectionFields status (.object fields) := by
  rw [isStatusProperty, Bool.or_eq_false_iff, decide_eq_false_iff_not] at hprop
  refine List.mem_append_left _ (List.mem_filterMap.mpr ⟨(prop, v), IndexMap.mem_of_get hget, ?_⟩)
  rw [indexedField, if_neg hprop.1]
  cases v with
  | bool b => cases b <;> rfl
  | string s =>
    have hsize : ¬ maxIndexableFieldValueBytes < byteLength s := by simpa [isPushable] using hv
    simp [scalarToText, hsize]
  | _ => simp [isPushable] at hv

/-! ### Translated clauses -/

/-- What a pushed translation promises: new placeholders in order, and a clause that holds whenever
the filter does, under any parameters that start with the ones bound so far. -/
structure Pushes (body : Value) (status : String) (fields : Members) (expr : FilterExpr)
    (ctx ctx' : TranslateCtx) (c : Sql) : Prop where
  extends_ : Extends ctx ctx' c
  sound : ∀ params, ctx'.params <+: params → evaluateFilter body expr = some true →
    c.eval params (projected status fields) = true

variable {left right : FilterExpr}

lemma evaluateFilter_and :
    evaluateFilter body (.binaryOp left .and right) = some true ↔
      evaluateFilter body left = some true ∧ evaluateFilter body right = some true := by
  rw [evaluateFilter]
  cases evaluateFilter body left <;> cases evaluateFilter body right <;> simp

lemma evaluateFilter_or (h : evaluateFilter body (.binaryOp left .or right) = some true) :
    evaluateFilter body left = some true ∨ evaluateFilter body right = some true := by
  rw [evaluateFilter] at h
  cases hl : evaluateFilter body left <;> cases hr : evaluateFilter body right <;> simp_all

variable {op : BinaryOperator}

/-- A true comparison of a property with a literal, whichever side the property is on. -/
lemma compareNullable_of_evaluate {value : ODataValue} (hop : op ≠ .and ∧ op ≠ .or)
    (hpair : propertyLiteralPair left right = some (prop, value))
    (h : evaluateFilter body (.binaryOp left op right) = some true) :
    compareNullable (resolveProperty body prop) (some (odataValueToJson value)) op = true ∨
      compareNullable (some (odataValueToJson value)) (resolveProperty body prop) op = true := by
  unfold propertyLiteralPair at hpair
  split at hpair
  · cases hpair
    left
    cases op <;> simp_all [evaluateFilter, comparisonOperand]
  · cases hpair
    right
    cases op <;> simp_all [evaluateFilter, comparisonOperand]
  · simp at hpair

variable {ctx : TranslateCtx}

/-- A pushed equality with a field. -/
lemma pushes_fieldEq (hbody : IsBody body status fields) {text : String} {value : ODataValue}
    (hpair : propertyLiteralPair left right = some (prop, value))
    (hprop : isStatusProperty prop = false) (hindexed : Indexed body status fields prop)
    (hpush : isPushable (odataValueToJson value) = true)
    (htext : scalarToText (odataValueToJson value) = some text) (hctx : ctx.Numbered) :
    Pushes body status fields (.binaryOp left .eq right) ctx
      ⟨ctx.params ++ [prop] ++ [text], ctx.nextParam + 1 + 1⟩
      (.fieldCompare ctx.nextParam .eq (ctx.nextParam + 1)) := by
  rw [TranslateCtx.Numbered] at hctx
  rw [List.append_assoc] at *
  refine ⟨⟨?_, List.prefix_append _ _, ?_⟩, ?_⟩
  · simp [TranslateCtx.Numbered, hctx]
    omega
  · simp [Sql.placeholders, List.range'_succ]
  intro params hparams heval
  have hfield : boundParam params ctx.nextParam = some prop := by
    rw [hctx]
    exact boundParam_of_prefix hparams
  have hvalue : boundParam params (ctx.nextParam + 1) = some text := by
    rw [hctx, show 3 + ctx.params.length + 1 = 3 + (ctx.params ++ [prop]).length by simp; omega]
    exact boundParam_of_prefix (by simpa using hparams)
  -- the property has exactly the value of the literal
  have hresolve : resolveProperty body prop = some (odataValueToJson value) := by
    have hcompare := compareNullable_of_evaluate (by simp) hpair heval
    cases hstored : resolveProperty body prop with
    | none =>
      generalize odataValueToJson value = w at hpush hcompare
      cases w <;> simp_all [compareNullable, Option.filter, Value.isNull, isPushable]
    | some v =>
      generalize odataValueToJson value = w at hpush hcompare
      cases v <;> cases w <;>
        simp_all [compareNullable, Option.filter, Value.isNull, isPushable, jsonEq, Value.eq]
      all_goals exact hcompare.elim id Eq.symm
  have hrow : (prop, some text) ∈ indexedProjectionFields status (.object fields) := by
    rw [← htext]
    rw [hbody.resolve_field hprop, Option.or_eq_some_iff] at hresolve
    rcases hresolve with htop | ⟨-, hget⟩
    · exact hindexed _ htop hpush
    · exact mem_indexedProjectionFields hprop hpush hget
  rw [Sql.eval, ProjectedEntity.someRow, List.any_eq_true]
  exact ⟨(prop, some text), hrow, by simp [hfield, hvalue, SqlOp.holds]⟩

/-- On texts the filter compares as SQL does. -/
lemma compareNullable_strings {sqlOp : SqlOp} (hop : sqlOpOf op = some sqlOp) (a b : String) :
    compareNullable (some (.string a)) (some (.string b)) op = sqlOp.holds a b := by
  cases op <;> simp_all [sqlOpOf] <;> subst hop <;>
    simp [compareNullable, Option.filter, Value.isNull, compareValues, jsonEq, jsonCmp, SqlOp.holds]

/-- A pushed comparison with the status. -/
lemma pushes_status (hbody : IsBody body status fields) {text : String} {sqlOp : SqlOp}
    (hop : sqlOpOf op = some sqlOp)
    (hpair : propertyLiteralPair left right = some (prop, .string text))
    (hside : op = .eq ∨ left = .property prop) (hprop : isStatusProperty prop = true)
    (hctx : ctx.Numbered) :
    Pushes body status fields (.binaryOp left op right) ctx
      ⟨ctx.params ++ [text], ctx.nextParam + 1⟩ (.statusCompare sqlOp ctx.nextParam) := by
  rw [TranslateCtx.Numbered] at hctx
  refine ⟨⟨?_, List.prefix_append _ _, ?_⟩, ?_⟩
  · simp [TranslateCtx.Numbered, hctx]
    omega
  · simp [Sql.placeholders]
  intro params hparams heval
  have hvalue : boundParam params ctx.nextParam = some text := by
    rw [hctx]
    exact boundParam_of_prefix hparams
  rw [Sql.eval, hvalue, Option.any_some]
  have hresolve := hbody.resolve_status hprop
  rcases hside with rfl | rfl
  · have hcompare := compareNullable_of_evaluate (by simp) hpair heval
    rw [hresolve, odataValueToJson, compareNullable_strings hop, compareNullable_strings hop] at hcompare
    obtain rfl : SqlOp.eq = sqlOp := by simpa [sqlOpOf] using hop
    rcases hcompare with hcompare | hcompare
    · exact hcompare
    · simp only [SqlOp.holds, compare_eq_iff_eq, decide_eq_true_eq] at hcompare ⊢
      exact hcompare.symm
  · cases right with
    | literal value =>
      obtain rfl : value = .string text := by simpa [propertyLiteralPair] using hpair
      have heval' : compareNullable (some (.string status)) (some (.string text)) op = true := by
        cases op <;> simp_all [evaluateFilter, comparisonOperand, sqlOpOf, odataValueToJson]
      rwa [compareNullable_strings hop] at heval'
    | _ => simp [propertyLiteralPair] at hpair

/-! ### Pushed filters -/

omit [Floats] in
/-- The properties compared in an expression. -/
def comparedProperties : FilterExpr → List String
  | .binaryOp left .and right | .binaryOp left .or right =>
    comparedProperties left ++ comparedProperties right
  | .binaryOp left _ right => ((propertyLiteralPair left right).map (·.1)).toList
  | _ => []

omit [Floats] in
/-- The properties compared in the part of a filter that is pushed. -/
def pushedProperties : FilterExpr → List String
  | .binaryOp left .and right => pushedProperties left ++ pushedProperties right
  | expr => if candidateFilterIsLossless expr then comparedProperties expr else []

/-- The index can answer for every property of the list but the status. -/
def AllIndexed (body : Value) (status : String) (fields : Members) (props : List String) : Prop :=
  ∀ prop ∈ props, isStatusProperty prop = false → Indexed body status fields prop

/-- Two translations combined. -/
lemma Pushes.both {ctx₁ ctx₂ : TranslateCtx} {l r : Sql} (hctx : ctx.Numbered)
    (hl : Pushes body status fields left ctx ctx₁ l)
    (hr : Pushes body status fields right ctx₁ ctx₂ r) :
    Pushes body status fields (.binaryOp left .and right) ctx ctx₂ (.and l r) ∧
      Pushes body status fields (.binaryOp left .or right) ctx ctx₂ (.or l r) := by
  have hextends := hl.extends_.both hctx hr.extends_
  refine ⟨⟨hextends, ?_⟩, ⟨⟨hextends.numbered, hextends.grows, hextends.placeholders⟩, ?_⟩⟩
  · intro params hparams heval
    rw [evaluateFilter_and] at heval
    rw [Sql.eval, hl.sound params (hr.extends_.grows.trans hparams) heval.1,
      hr.sound params hparams heval.2, Bool.and_self]
  · intro params hparams heval
    rw [Sql.eval, Bool.or_eq_true]
    rcases evaluateFilter_or heval with heval | heval
    · exact .inl (hl.sound params (hr.extends_.grows.trans hparams) heval)
    · exact .inr (hr.sound params hparams heval)

/-- A lossless equality is pushed. -/
lemma pushes_losslessEq (hbody : IsBody body status fields)
    (hindexed : AllIndexed body status fields (comparedProperties (.binaryOp left .eq right)))
    (hlossless : losslessEqComparison left right = true) (hctx : ctx.Numbered) :
    ∃ c ctx', translateExpr (.binaryOp left .eq right) ctx = (some c, ctx') ∧
      Pushes body status fields (.binaryOp left .eq right) ctx ctx' c := by
  rw [losslessEqComparison] at hlossless
  cases hpair : propertyLiteralPair left right with
  | none => simp [hpair] at hlossless
  | some pair =>
    obtain ⟨prop, value⟩ := pair
    simp only [hpair] at hlossless
    have htranslate : translateExpr (.binaryOp left .eq right) ctx =
        translateComparison left .eq right ctx := by simp [translateExpr]
    rw [htranslate, translateComparison, hpair]
    simp only [sqlOpOf]
    by_cases hstatus : isStatusProperty prop = true
    · rw [if_pos hstatus] at hlossless
      simp only [if_pos hstatus, translateStatusComparison]
      cases value with
      | null =>
        refine ⟨_, _, rfl, ⟨⟨hctx, List.prefix_rfl, by simp [Sql.placeholders]⟩, ?_⟩⟩
        intro params hparams heval
        have hcompare := compareNullable_of_evaluate (by simp) hpair heval
        rw [hbody.resolve_status hstatus] at hcompare
        simp [compareNullable, Option.filter, Value.isNull, odataValueToJson] at hcompare
      | string text => exact ⟨_, _, rfl, pushes_status hbody rfl hpair (.inl rfl) hstatus hctx⟩
      | _ => simp at hlossless
    · have hfalse : isStatusProperty prop = false := by simpa using hstatus
      have hprop : Indexed body status fields prop := by
        refine hindexed prop ?_ hfalse
        simp [comparedProperties, hpair]
      rw [if_neg hstatus] at hlossless
      simp only [if_neg hstatus]
      cases value with
      | boolean b =>
        exact ⟨_, _, rfl, pushes_fieldEq hbody hpair hfalse hprop rfl rfl hctx⟩
      | string text =>
        have hsize : isPushable (odataValueToJson (.string text)) = true := hlossless
        exact ⟨_, _, rfl, pushes_fieldEq hbody hpair hfalse hprop hsize rfl hctx⟩
      | _ => simp at hlossless

/-- A comparison of the status with a text is pushed. -/
lemma pushes_statusLiteral (hbody : IsBody body status fields) {sqlOp : SqlOp}
    (hop : sqlOpOf op = some sqlOp) (hstatus : statusLiteralComparison left right = true)
    (hctx : ctx.Numbered) :
    ∃ c ctx', translateExpr (.binaryOp left op right) ctx = (some c, ctx') ∧
      Pushes body status fields (.binaryOp left op right) ctx ctx' c := by
  unfold statusLiteralComparison at hstatus
  split at hstatus
  · next prop text =>
    have htranslate : translateExpr (.binaryOp (.property prop) op (.literal (.string text))) ctx =
        translateComparison (.property prop) op (.literal (.string text)) ctx := by
      cases op <;> simp_all [sqlOpOf, translateExpr]
    refine ⟨_, _, ?_, pushes_status hbody hop rfl (.inr rfl) hstatus hctx⟩
    rw [htranslate, translateComparison, propertyLiteralPair, hop]
    simp only [if_pos hstatus]
    rfl
  · simp at hstatus

/-- A lossless expression is pushed whole. -/
theorem pushes_lossless (hbody : IsBody body status fields) {expr : FilterExpr}
    (hindexed : AllIndexed body status fields (comparedProperties expr))
    (hlossless : candidateFilterIsLossless expr = true) (hctx : ctx.Numbered) :
    ∃ c ctx', translateExpr expr ctx = (some c, ctx') ∧
      Pushes body status fields expr ctx ctx' c := by
  fun_induction candidateFilterIsLossless expr generalizing ctx with
  | case1 left right ihl ihr =>
    rw [Bool.and_eq_true] at hlossless
    rw [comparedProperties] at hindexed
    obtain ⟨l, ctx₁, htl, hl⟩ := ihl (fun p hp => hindexed p (List.mem_append_left _ hp)) hlossless.1 hctx
    obtain ⟨r, ctx₂, htr, hr⟩ := ihr (fun p hp => hindexed p (List.mem_append_right _ hp)) hlossless.2
      hl.extends_.numbered
    refine ⟨.and l r, ctx₂, ?_, (hl.both hctx hr).1⟩
    simp [translateExpr, translateBoth, htl, htr]
  | case2 left right ihl ihr =>
    rw [Bool.and_eq_true] at hlossless
    rw [comparedProperties] at hindexed
    obtain ⟨l, ctx₁, htl, hl⟩ := ihl (fun p hp => hindexed p (List.mem_append_left _ hp)) hlossless.1 hctx
    obtain ⟨r, ctx₂, htr, hr⟩ := ihr (fun p hp => hindexed p (List.mem_append_right _ hp)) hlossless.2
      hl.extends_.numbered
    refine ⟨.or l r, ctx₂, ?_, (hl.both hctx hr).2⟩
    simp [translateExpr, translateBoth, htl, htr]
  | case3 left right => exact pushes_losslessEq hbody hindexed hlossless hctx
  | case4 left right => exact pushes_statusLiteral hbody rfl hlossless hctx
  | case5 left right => exact pushes_statusLiteral hbody rfl hlossless hctx
  | case6 left right => exact pushes_statusLiteral hbody rfl hlossless hctx
  | case7 left right => exact pushes_statusLiteral hbody rfl hlossless hctx
  | case8 => simp at hlossless

/-- An expression that is pushed whole or not at all. -/
lemma pushes_whole (hbody : IsBody body status fields) {expr : FilterExpr} (hctx : ctx.Numbered)
    (htranslate : translateCandidateExpr expr ctx =
      if candidateFilterIsLossless expr then translateExpr expr ctx else (none, ctx))
    (hpushed : pushedProperties expr =
      if candidateFilterIsLossless expr then comparedProperties expr else [])
    (hindexed : AllIndexed body status fields (pushedProperties expr)) :
    translateCandidateExpr expr ctx = (none, ctx) ∨
      ∃ c ctx', translateCandidateExpr expr ctx = (some c, ctx') ∧
        Pushes body status fields expr ctx ctx' c := by
  by_cases hlossless : candidateFilterIsLossless expr = true
  · right
    rw [hpushed, if_pos hlossless] at hindexed
    rw [htranslate, if_pos hlossless]
    exact pushes_lossless hbody hindexed hlossless hctx
  · left
    rw [htranslate, if_neg hlossless]

/-- A candidate translation binds nothing, or is a pushed clause. -/
theorem translateCandidateExpr_pushes (hbody : IsBody body status fields) (expr : FilterExpr)
    (hindexed : AllIndexed body status fields (pushedProperties expr)) {ctx : TranslateCtx}
    (hctx : ctx.Numbered) :
    translateCandidateExpr expr ctx = (none, ctx) ∨
      ∃ c ctx', translateCandidateExpr expr ctx = (some c, ctx') ∧
        Pushes body status fields expr ctx ctx' c := by
  match expr with
  | .binaryOp left .and right =>
    rw [pushedProperties] at hindexed
    have hl := translateCandidateExpr_pushes hbody left
      (fun p hp => hindexed p (List.mem_append_left _ hp)) hctx
    have hindexed' : AllIndexed body status fields (pushedProperties right) :=
      fun p hp => hindexed p (List.mem_append_right _ hp)
    rw [translateCandidateExpr]
    rcases hl with hl | ⟨l, ctx₁, hl, hpl⟩
    · rcases translateCandidateExpr_pushes hbody right hindexed' hctx with hr | ⟨r, ctx₂, hr, hpr⟩
      · simp [hl, hr]
      · refine .inr ⟨r, ctx₂, by simp [hl, hr], hpr.extends_, ?_⟩
        intro params hparams heval
        exact hpr.sound params hparams (evaluateFilter_and.mp heval).2
    · rcases translateCandidateExpr_pushes hbody right hindexed' hpl.extends_.numbered with
        hr | ⟨r, ctx₂, hr, hpr⟩
      · refine .inr ⟨l, ctx₁, by simp [hl, hr], hpl.extends_, ?_⟩
        intro params hparams heval
        exact hpl.sound params hparams (evaluateFilter_and.mp heval).1
      · exact .inr ⟨.and l r, ctx₂, by simp [hl, hr], (hpl.both hctx hpr).1⟩
  | .binaryOp left .or right | .binaryOp left .eq right | .binaryOp left .ne right
  | .binaryOp left .gt right | .binaryOp left .ge right | .binaryOp left .lt right
  | .binaryOp left .le right | .binaryOp left .has right | .unaryOp op operand | .property name
  | .literal value | .functionCall name args =>
    exact pushes_whole hbody hctx (by simp [translateCandidateExpr]) (by simp [pushedProperties])
      hindexed

/-! ### Narrowing loses nothing -/

/-- The candidate clause of a filter numbers its parameters in order and holds of the entity when
the filter does. -/
def KeepsMatch (filter : FilterExpr) (body : Value) (status : String) (fields : Members) : Prop :=
  ∀ c, tryTranslateCandidateFilter filter = some c →
    c.whereClause.placeholders = List.range' 3 c.params.length ∧
      (evaluateFilter body filter = some true →
        c.whereClause.eval c.params (projected status fields) = true)

/-- Enough for one filter: the index can answer for the properties it pushes. -/
lemma keepsMatch_of_indexed (hbody : IsBody body status fields) {filter : FilterExpr}
    (hindexed : AllIndexed body status fields (pushedProperties filter)) :
    KeepsMatch filter body status fields := by
  intro c hc
  have hnumbered : TranslateCtx.Numbered {} := rfl
  rw [tryTranslateCandidateFilter] at hc
  rcases translateCandidateExpr_pushes hbody filter hindexed hnumbered with h | ⟨clause, ctx, h, hpush⟩
  · simp [h] at hc
  · obtain rfl : ⟨clause, ctx.params⟩ = c := by simpa [h] using hc
    refine ⟨by simpa using hpush.extends_.placeholders, ?_⟩
    exact hpush.sound ctx.params List.prefix_rfl

/-- Narrowing keeps an entity for every filter that accepts it exactly when the index has a row for
each of its top-level members, other than the status, that an equality is pushed for. One filter
needs this only for the properties it pushes. -/
theorem narrowing_keeps_matches_iff (hbody : IsBody body status fields) :
    (∀ filter, AllIndexed body status fields (pushedProperties filter) →
      KeepsMatch filter body status fields) ∧
    ((∀ filter, KeepsMatch filter body status fields) ↔
      ∀ prop, isStatusProperty prop = false → Indexed body status fields prop) := by
  refine ⟨fun filter => keepsMatch_of_indexed hbody, ?_, ?_⟩
  · intro h prop hprop v hget hpush
    obtain ⟨literal, text, hliteral, htext, hlossless⟩ : ∃ literal text,
        odataValueToJson literal = v ∧ scalarToText v = some text ∧ odataValueToText literal = some text ∧
        literal ≠ .null ∧
        candidateFilterIsLossless (.binaryOp (.property prop) .eq (.literal literal)) = true := by
      cases v with
      | bool b =>
        refine ⟨.boolean b, _, rfl, rfl, rfl, by simp, ?_⟩
        simp [candidateFilterIsLossless, losslessEqComparison, propertyLiteralPair, hprop]
      | string s =>
        refine ⟨.string s, _, rfl, rfl, rfl, by simp, ?_⟩
        simpa [candidateFilterIsLossless, losslessEqComparison, propertyLiteralPair, hprop,
          isPushable] using hpush
      | _ => simp [isPushable] at hpush
    obtain ⟨hvalue, hnull, hlossless⟩ := hlossless
    have htranslate : tryTranslateCandidateFilter (.binaryOp (.property prop) .eq (.literal literal)) =
        some ⟨.fieldCompare 3 .eq 4, [prop, text]⟩ := by
      simp [tryTranslateCandidateFilter, translateCandidateExpr, hlossless, translateExpr,
        translateComparison, propertyLiteralPair, sqlOpOf, hprop, hnull, hvalue,
        TranslateCtx.addParam]
    have heval : evaluateFilter body (.binaryOp (.property prop) .eq (.literal literal)) =
        some true := by
      simp only [evaluateFilter, comparisonOperand, hbody.resolve_field hprop, hget, hliteral,
        Option.some_or]
      cases v <;> simp_all [compareNullable, Option.filter, Value.isNull, isPushable, jsonEq]
    have hclause := (h _ _ htranslate).2 heval
    rw [Sql.eval, ProjectedEntity.someRow, List.any_eq_true] at hclause
    obtain ⟨⟨name, stored⟩, hrow, htest⟩ := hclause
    rw [htext]
    cases stored with
    | none => simp at htest
    | some stored =>
      obtain ⟨rfl, rfl⟩ : name = prop ∧ stored = text := by
        simpa [boundParam, SqlOp.holds] using htest
      exact hrow
  · exact fun h filter => keepsMatch_of_indexed hbody fun prop _ hprop => h prop hprop

end

section

attribute [local instance] Floats.decimal

/-- The body of note 1. -/
def noteBody (fields : Members) : Value :=
  .object [("entity_type", .string "Note"), ("entity_id", .string "1"), ("status", .string "Draft"),
    ("fields", .object fields)]

lemma noteBody_isBody (fields : Members) : IsBody (noteBody fields) "Draft" fields :=
  ⟨⟨"1", rfl⟩, ⟨"Note", rfl⟩, rfl, rfl, rfl⟩

/-- `entity_id eq '1'` -/
def byId : FilterExpr := .binaryOp (.property "entity_id") .eq (.literal (.string "1"))

/-- A note whose fields repeat its type and id is not lost. -/
theorem repeated_identity_is_kept :
    KeepsMatch byId (noteBody [("entity_type", .string "Note"), ("entity_id", .string "1")]) "Draft"
      [("entity_type", .string "Note"), ("entity_id", .string "1")] := by
  refine ((narrowing_keeps_matches_iff (noteBody_isBody _)).2.mpr ?_) byId
  intro prop hprop v hget hpush
  rw [noteBody, Value.get_object, IndexMap.get_cons, IndexMap.get_cons, IndexMap.get_cons,
    IndexMap.get_cons, IndexMap.get_nil] at hget
  split_ifs at hget with htype hid hstatus hfields
  · subst htype
    cases hget
    decide
  · subst hid
    cases hget
    decide
  · subst hstatus
    simp [isStatusProperty] at hprop
  · cases hget
    simp [isPushable] at hpush

/-- The filter accepts note 1, and its candidate clause does not. -/
theorem note_is_lost_by_id :
    IsBody (noteBody [("title", .string "a")]) "Draft" [("title", .string "a")] ∧
      ¬ KeepsMatch byId (noteBody [("title", .string "a")]) "Draft" [("title", .string "a")] := by
  refine ⟨noteBody_isBody _, fun h => ?_⟩
  have hlost := (h ⟨.fieldCompare 3 .eq 4, ["entity_id", "1"]⟩ (by rfl)).2 (by decide)
  exact absurd hlost (by decide)

end

end Temper.Odata
