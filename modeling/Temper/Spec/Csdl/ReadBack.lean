import Mathlib
import Temper.Spec.Csdl.Emit
import Temper.Spec.Csdl.Parser

/-!
# What the parser makes of written pieces

Each element is read back by the loop it is written for. Operations and containers without children
are written without an end tag; within a schema such tags are not read.
-/

namespace Temper.Spec.Csdl

/-! ### Numbers -/

lemma parseU32_formatU32 (n : UInt32) : parseU32 (formatU32 n) = some n := by
  have hn : n.toNat < 2 ^ 32 := n.toNat_lt
  unfold parseU32 formatU32
  rw [parseUsize_toString (by omega), Option.bind_some, if_pos hn, UInt32.ofNat_toNat]

lemma parseI64_formatI64 (n : Int64) : parseI64 (formatI64 n) = some n := by
  have hmin : -2 ^ 63 ≤ n.toInt := n.le_toInt
  have hmax : n.toInt < 2 ^ 63 := n.toInt_lt
  unfold formatI64
  cases hn : n.toInt with
  | ofNat k =>
    have htext : toString (Int.ofNat k) = toString k := rfl
    rw [hn] at hmax
    have hk : k < 2 ^ 63 := by simpa using hmax
    unfold parseI64
    rw [htext]
    split
    next ds heq =>
      have hminus : '-'.isDigit = true := isDigit_of_mem_toString (n := k) (by rw [heq]; simp)
      exact absurd hminus (by decide)
    next =>
      rw [parseUsize_toString (by omega), Option.bind_some, if_pos hk, ← Int64.ofInt_toInt n, hn]
      rfl
  | negSucc k =>
    have htext : (toString (Int.negSucc k)).toList = '-' :: (toString (k + 1)).toList := by
      have hminus : toString (Int.negSucc k) = "-" ++ toString (k + 1) := rfl
      rw [hminus]
      simp
    rw [hn, Int.negSucc_eq] at hmin
    have hk : k + 1 ≤ 2 ^ 63 := by omega
    have hplus : (toString (k + 1)).toList.head? ≠ some '+' := by
      intro hhead
      have hplus : '+'.isDigit = true :=
        isDigit_of_mem_toString (n := k + 1) (List.mem_of_mem_head? hhead)
      exact absurd hplus (by decide)
    unfold parseI64
    rw [htext]
    simp only
    rw [if_neg hplus, String.ofList_toList, parseUsize_toString (by omega), Option.bind_some,
      if_pos hk, ← Int64.ofInt_toInt n, hn]
    rfl

/-! ### Attributes -/

lemma findAttr_readAttributes (element name : String) (attributes : List (String × String)) :
    findAttr element name (readAttributes attributes) = .ok (attributes.lookup name) := by
  induction attributes with
  | nil => rfl
  | cons a attributes ih =>
    obtain ⟨key, value⟩ := a
    have htail : readAttributes ((key, value) :: attributes) =
        .ok (key, .ok value) :: readAttributes attributes := rfl
    rw [htail, findAttr]
    by_cases hkey : key = name
    · simp [hkey]
    · simp [List.lookup_cons, hkey, ih, beq_false_of_ne (Ne.symm hkey)]

@[simp] lemma attrStr_read (tag name : String) (attributes : List (String × String)) :
    Element.attrStr ⟨tag, readAttributes attributes⟩ name = .ok (attributes.lookup name) :=
  findAttr_readAttributes tag name attributes

@[simp] lemma lookup_optionalAttribute (key name : String) (value : Option String) :
    (optionalAttribute name value).lookup key = if key = name then value else none := by
  cases value with
  | none => simp [optionalAttribute]
  | some value => by_cases h : key = name <;> simp [optionalAttribute, h]

@[simp] lemma lookup_flagAttribute (key name value : String) (written : Bool) :
    (flagAttribute written name value).lookup key =
      if key = name ∧ written = true then some value else none := by
  cases written <;> by_cases h : key = name <;> simp [flagAttribute, h]

/-! ### Pieces that a loop reads -/

section Consumes

variable (floats : FloatFormat) (frozen : Bool) (unescape : String → Except String String)

/-- The innermost loop reads the pieces and is left in another state; the loops around it do not
see them. -/
def Consumes (l : Loop) (pieces : List Piece) (l' : Loop) : Prop :=
  ∀ d outer, ParserState.run floats frozen unescape ⟨d, l :: outer⟩ (pieces.map Piece.token) =
    .ok ⟨d, l' :: outer⟩

variable {floats frozen unescape} {l l' l'' inner inner' : Loop}

lemma Consumes.nil : Consumes floats frozen unescape l [] l := fun _ _ => rfl

lemma Consumes.append {ps qs : List Piece} (hps : Consumes floats frozen unescape l ps l')
    (hqs : Consumes floats frozen unescape l' qs l'') :
    Consumes floats frozen unescape l (ps ++ qs) l'' := by
  intro d outer
  have hfirst := hps d outer
  unfold ParserState.run at hfirst ⊢
  rw [List.map_append, List.foldlM_append, hfirst]
  exact hqs d outer

/-- The pieces of a list, each adding to a list. -/
lemma Consumes.collect {α β : Type} {emit : α → List Piece} (state : List β → Loop)
    (add : α → List β) (xs : List α)
    (h : ∀ x ∈ xs, ∀ before, Consumes floats frozen unescape (state before) (emit x)
      (state (before ++ add x))) (before : List β) :
    Consumes floats frozen unescape (state before) (xs.flatMap emit)
      (state (before ++ xs.flatMap add)) := by
  induction xs generalizing before with
  | nil =>
    rw [List.flatMap_nil, List.flatMap_nil, List.append_nil]
    exact .nil
  | cons x xs ih =>
    have hrest := ih (fun y hy => h y (List.mem_cons_of_mem _ hy)) (before ++ add x)
    rw [List.append_assoc] at hrest
    exact (h x (by simp) before).append hrest

/-- The pieces of a list, read into a list. -/
lemma Consumes.list {α : Type} {emit : α → List Piece} (state : List α → Loop) (xs : List α)
    (h : ∀ x ∈ xs, ∀ before, Consumes floats frozen unescape (state before) (emit x)
      (state (before ++ [x]))) (before : List α) :
    Consumes floats frozen unescape (state before) (xs.flatMap emit) (state (before ++ xs)) := by
  have hcollect := Consumes.collect state (fun x => [x]) xs h before
  rwa [List.flatMap_singleton'] at hcollect

/-- A piece at which a loop goes on. -/
lemma Consumes.stay {p : Piece} (h : l.onToken floats frozen p.token = .ok (.stay l')) :
    Consumes floats frozen unescape l [p] l' := by
  intro d outer
  simp [ParserState.run, ParserState.step, h, bind, Except.bind, pure, Except.pure]

/-- An inner loop that runs from a start tag to the end tag and returns what it has read. -/
lemma Consumes.within {p q : Piece} {children : List Piece} {r : Read}
    (hstart : l.onToken floats frozen p.token = .ok (.enter l inner))
    (hchildren : Consumes floats frozen unescape inner children inner')
    (hend : inner'.onToken floats frozen q.token = .ok (.leave r))
    (haccept : l.accept unescape r = .ok l') :
    Consumes floats frozen unescape l (p :: children ++ [q]) l' := by
  intro d outer
  have hinner := hchildren d (l :: outer)
  unfold ParserState.run at hinner ⊢
  rw [List.cons_append, List.map_cons, List.map_append, List.foldlM_cons, ParserState.step]
  simp only [hstart, bind, Except.bind, pure, Except.pure] at hinner ⊢
  rw [List.foldlM_append, hinner]
  simp [ParserState.step, ParserState.give, hend, haccept, bind, Except.bind, pure, Except.pure]

end Consumes

/-! ### Elements by their attributes -/

@[simp] lemma bind_map_formatU32 (n : Option UInt32) : (n.map formatU32).bind parseU32 = n := by
  cases n <;> simp [parseU32_formatU32]

@[simp] lemma bind_map_formatI64 (n : Option Int64) : (n.map formatI64).bind parseI64 = n := by
  cases n <;> simp [parseI64_formatI64]

/-- A flag that is only written when false is read as it was. -/
@[simp] lemma all_ne_false (flag : Bool) :
    (if flag = false then some "false" else none).all (fun v => !decide (v = "false")) = flag := by
  cases flag <;> simp

@[simp] lemma any_eq_true (flag : Bool) :
    (if flag = true then some "true" else none).any (fun v => decide (v = "true")) = flag := by
  cases flag <;> simp

section Attributes

variable (tag : String)

lemma parseProperty_read (p : Property) :
    parseProperty ⟨tag, readAttributes p.attributes⟩ = .ok p := by
  simp [parseProperty, Property.attributes, List.lookup_append, List.lookup_cons, bind,
    Except.bind, pure, Except.pure]

lemma parseParameter_read (p : Parameter) :
    parseParameter ⟨tag, readAttributes p.attributes⟩ = .ok p := by
  simp [parseParameter, Parameter.attributes, List.lookup_append, List.lookup_cons, bind,
    Except.bind, pure, Except.pure]

lemma parseReturnType_read (t : ReturnType) :
    parseReturnType ⟨tag, readAttributes t.attributes⟩ = .ok t := by
  simp [parseReturnType, ReturnType.attributes, List.lookup_append, List.lookup_cons, bind,
    Except.bind, pure, Except.pure]

lemma parseTerm_read (t : Term) : parseTerm ⟨tag, readAttributes t.attributes⟩ = .ok t := by
  simp [parseTerm, Term.attributes, List.lookup_append, List.lookup_cons, bind, Except.bind, pure,
    Except.pure]

lemma parseEnumMember_read (m : EnumMember) :
    parseEnumMember ⟨tag, readAttributes m.attributes⟩ = .ok m := by
  simp [parseEnumMember, EnumMember.attributes, List.lookup_cons, bind, Except.bind, pure,
    Except.pure]

lemma navPropFromAttrs_read (n : NavigationProperty) :
    navPropFromAttrs ⟨tag, readAttributes n.attributes⟩ =
      .ok { n with referentialConstraints := [] } := by
  simp [navPropFromAttrs, NavigationProperty.attributes, List.lookup_append, List.lookup_cons,
    bind, Except.bind, pure, Except.pure]

lemma parseEmptyOperation_read (o : Operation) :
    parseEmptyOperation ⟨tag, readAttributes o.attributes⟩ =
      .ok { name := o.name, isBound := o.isBound } := by
  simp [parseEmptyOperation, Operation.attributes, Element.requiredAttr, List.lookup_cons, bind,
    Except.bind, pure, Except.pure]

end Attributes

/-! ### Elements that are read back -/

section Elements

variable {floats : FloatFormat} {frozen : Bool} {unescape : String → Except String String}

/-- Whether a loop takes character data as it stands. -/
def Loop.isText : Loop → Bool
  | .text _ _ _ => true
  | _ => false

lemma onToken_of_not_text {l : Loop} (h : l.isText = false) (p : Piece) :
    l.onToken floats frozen p.token =
      match p.markup with
      | .start name attributes => l.onStart floats ⟨name, readAttributes attributes⟩
      | .empty name attributes => do
        pure (.stay (← l.onEmpty floats frozen ⟨name, readAttributes attributes⟩))
      | .end name => l.onEnd name := by
  obtain ⟨before, markup⟩ := p
  cases l with
  | text => cases h
  | _ => cases markup <;> rfl

section Tags

variable {l l' inner inner' : Loop} {indent : Nat} {name : String}
  {attributes : List (String × String)} {children : List Piece}

lemma consumes_leaf (hl : l.isText = false)
    (h : l.onEmpty floats frozen ⟨name, readAttributes attributes⟩ = .ok l') :
    Consumes floats frozen unescape l (leaf indent name attributes) l' := by
  apply Consumes.stay
  rw [onToken_of_not_text hl]
  simp [line, h, bind, Except.bind, pure, Except.pure]

lemma consumes_block {r : Read} (hl : l.isText = false) (hinner : inner'.isText = false)
    (hstart : l.onStart floats ⟨name, readAttributes attributes⟩ = .ok (.enter l inner))
    (hchildren : Consumes floats frozen unescape inner children inner')
    (hend : inner'.onEnd name = .ok (.leave r)) (haccept : l.accept unescape r = .ok l') :
    Consumes floats frozen unescape l (block indent name attributes children) l' := by
  refine Consumes.within ?_ hchildren ?_ haccept
  · rw [onToken_of_not_text hl]
    exact hstart
  · rw [onToken_of_not_text hinner]
    exact hend

end Tags

-- The loops are read off here, once for all the elements.
attribute [local simp] Loop.onEmpty Loop.onStart Loop.onEnd Loop.endName Loop.read
  enterSchemaChild readSchemaLeaf enterEntityTypeChild readEntityTypeLeaf

lemma consumes_enumMember (start : Element) (before : List EnumMember) (m : EnumMember) :
    Consumes floats frozen unescape (.enumType start before) (emitEnumMember m)
      (.enumType start (before ++ [m])) := by
  apply consumes_leaf rfl
  simp [localName, parseEnumMember_read, bind, Except.bind, pure, Except.pure]

lemma consumes_enumType (s : Schema) (before : List EnumType) (t : EnumType) :
    Consumes floats frozen unescape (.schema { s with enumTypes := before }) (emitEnumType t)
      (.schema { s with enumTypes := before ++ [t] }) := by
  have hmembers : Consumes floats frozen unescape
      (.enumType ⟨"EnumType", readAttributes [("Name", t.name)]⟩ [])
      (t.members.flatMap emitEnumMember)
      (.enumType ⟨"EnumType", readAttributes [("Name", t.name)]⟩ t.members) :=
    .list (.enumType _) t.members (fun m _ before => consumes_enumMember _ before m) []
  refine consumes_block (r := .enumType t) rfl rfl ?_ hmembers ?_ rfl
  · simp [localName, pure, Except.pure]
  · simp [localName, Element.requiredAttr, bind, Except.bind, pure, Except.pure]

lemma consumes_term (s : Schema) (before : List Term) (t : Term) :
    Consumes floats frozen unescape (.schema { s with terms := before }) (emitTerm t)
      (.schema { s with terms := before ++ [t] }) := by
  apply consumes_leaf rfl
  simp [localName, parseTerm_read, bind, Except.bind, pure, Except.pure]

/-! #### Entity types -/

variable (t : EntityType) (actions : List Action) (functions : List Function)

lemma consumes_propertyRef (before : List String) (key : String) :
    Consumes floats frozen unescape (.key before) (leaf 10 "PropertyRef" [("Name", key)])
      (.key (before ++ [key])) := by
  apply consumes_leaf rfl
  simp [pushPropertyRef, localName, bind, Except.bind, pure, Except.pure]

lemma consumes_key (keys : List String) :
    Consumes floats frozen unescape (.entityType { t with keyProperties := [] } actions functions)
      (emitKey keys) (.entityType { t with keyProperties := keys } actions functions) := by
  unfold emitKey
  split_ifs with hempty
  · obtain rfl := List.isEmpty_iff.mp hempty
    exact .nil
  · have hkeys : Consumes floats frozen unescape (.key [])
        (keys.flatMap fun key => leaf 10 "PropertyRef" [("Name", key)]) (.key keys) :=
      .list .key keys (fun key _ before => consumes_propertyRef before key) []
    refine consumes_block (r := .keys keys) rfl rfl ?_ hkeys ?_ rfl
    · simp [localName, pure, Except.pure]
    · simp [localName, bind, Except.bind, pure, Except.pure]

lemma consumes_property (before : List Property) (p : Property) :
    Consumes floats frozen unescape (.entityType { t with properties := before } actions functions)
      (emitProperty p) (.entityType { t with properties := before ++ [p] } actions functions) := by
  apply consumes_leaf rfl
  simp [localName, parseProperty_read, bind, Except.bind, pure, Except.pure]

lemma consumes_referentialConstraint (n : NavigationProperty)
    (before : List ReferentialConstraint) (c : ReferentialConstraint) :
    Consumes floats frozen unescape
      (.navigationProperty { n with referentialConstraints := before })
      (emitReferentialConstraint c)
      (.navigationProperty { n with referentialConstraints := before ++ [c] }) := by
  apply consumes_leaf rfl
  simp [localName, parseReferentialConstraint, List.lookup_cons, bind, Except.bind, pure,
    Except.pure]

lemma consumes_navigationProperty (before : List NavigationProperty) (n : NavigationProperty) :
    Consumes floats frozen unescape
      (.entityType { t with navigationProperties := before } actions functions)
      (emitNavigationProperty n)
      (.entityType { t with navigationProperties := before ++ [n] } actions functions) := by
  unfold emitNavigationProperty element
  split_ifs with hchildren
  · have hconstraints : Consumes floats frozen unescape
        (.navigationProperty { n with referentialConstraints := [] })
        (n.referentialConstraints.flatMap emitReferentialConstraint) (.navigationProperty n) :=
      .list (fun constraints => .navigationProperty { n with
        referentialConstraints := constraints }) n.referentialConstraints
        (fun c _ before => consumes_referentialConstraint n before c) []
    refine consumes_block (r := .navigationProperty n) rfl rfl ?_ hconstraints ?_ rfl
    · simp [localName, navPropFromAttrs_read, bind, Except.bind, pure, Except.pure]
    · simp [localName, bind, Except.bind, pure, Except.pure]
  · have hnone : n.referentialConstraints = [] := by simpa using hchildren
    apply consumes_leaf rfl
    simp [localName, navPropFromAttrs_read, ← hnone, bind, Except.bind, pure, Except.pure]

/-! #### Annotations -/

/-- An annotation whose value is read back as it was written. -/
def Annotation.Readable (unescape : String → Except String String) (a : Annotation) : Prop :=
  match a.value with
  | .float _ | .record _ => False
  | .collection items => ∀ item ∈ items, item ≠ "" ∧ unescape (xmlEscapeText item) = .ok item
  | _ => True

lemma consumes_item {term item : String} (before : List String) (hitem : item ≠ "")
    (hread : unescape (xmlEscapeText item) = .ok item) {indent : Nat} :
    Consumes floats frozen unescape (.annotationChildren term before true) (emitItem indent item)
      (.annotationChildren term (before ++ [item]) true) := by
  have hinner : Consumes floats frozen unescape (.text "String" 0 "") [] (.text "String" 0 "") :=
    .nil
  refine Consumes.within (r := .text (xmlEscapeText item)) ?_ hinner ?_ ?_
  · rw [onToken_of_not_text rfl]
    simp [line, localName]
  · simp [Loop.onToken, onText, Piece.token, Markup.event]
  · simp [Loop.accept, hread, hitem]

lemma consumes_collection {term : String} {items : List String} {indent : Nat}
    (h : ∀ item ∈ items, item ≠ "" ∧ unescape (xmlEscapeText item) = .ok item) :
    Consumes floats frozen unescape (.annotationChildren term [] false)
      (block indent "Collection" [] (items.flatMap (emitItem (indent + 2))))
      (.annotationChildren term items true) := by
  have hstart : Consumes floats frozen unescape (.annotationChildren term [] false)
      [line indent (.start "Collection" [])] (.annotationChildren term [] true) := by
    apply Consumes.stay
    rw [onToken_of_not_text rfl]
    simp [line, localName]
  have hitems : Consumes floats frozen unescape (.annotationChildren term [] true)
      (items.flatMap (emitItem (indent + 2))) (.annotationChildren term items true) :=
    .list (.annotationChildren term · true) items
      (fun item hitem before => consumes_item before (h item hitem).1 (h item hitem).2) []
  have hend : Consumes floats frozen unescape (.annotationChildren term items true)
      [line indent (.end "Collection")] (.annotationChildren term items true) := by
    apply Consumes.stay
    rw [onToken_of_not_text rfl]
    simp [line, localName]
  exact (hstart.append hitems).append hend

/-- A loop that collects annotations. -/
structure Annotated (floats : FloatFormat) (frozen : Bool)
    (unescape : String → Except String String) (state : List Annotation → Loop) : Prop where
  notText : ∀ before, (state before).isText = false
  leaf : ∀ before e a, localName e.name = "Annotation" →
    annotationFromAttrs floats e = .ok (some a) →
      (state before).onEmpty floats frozen e = .ok (state (before ++ [a]))
  start : ∀ before e inner, localName e.name = "Annotation" →
    enterAnnotationChildren floats e = .ok (.inr inner) →
      (state before).onStart floats e = .ok (.enter (state before) inner)
  accept : ∀ before a, (state before).accept unescape (.annotated a) =
    .ok (state (before ++ [a]))

lemma consumes_annotation {state : List Annotation → Loop}
    (h : Annotated floats frozen unescape state) {a : Annotation} (ha : a.Readable unescape)
    (before : List Annotation) {indent : Nat} :
    Consumes floats frozen unescape (state before) (emitAnnotationElement floats indent a)
      (state (before ++ [a])) := by
  obtain ⟨term, value⟩ := a
  cases value with
  | float value => cases ha
  | record entries => cases ha
  | collection items =>
    have hitems : Consumes floats frozen unescape (.annotationChildren term [] false)
        (block (indent + 2) "Collection" [] (items.flatMap (emitItem (indent + 4))))
        (.annotationChildren term items true) := consumes_collection ha
    refine consumes_block (r := .annotated ⟨term, .collection items⟩) (h.notText before) rfl ?_
      hitems ?_ (h.accept before _)
    · apply h.start
      · simp [localName]
      · simp [enterAnnotationChildren, parseInlineAnnotationOverride, bind, Except.bind, pure,
          Except.pure]
    · simp [localName, bind, Except.bind, pure, Except.pure]
  | bool value =>
    apply consumes_leaf (h.notText before)
    apply h.leaf
    · simp [localName]
    · have htext : decide (toString value = "true") = value := by cases value <;> rfl
      simp [annotationFromAttrs, parseInlineAnnotationValue, parseInlineAnnotationOverride,
        List.lookup_cons, htext, bind, Except.bind, pure, Except.pure]
  | _ =>
    apply consumes_leaf (h.notText before)
    apply h.leaf
    · simp [localName]
    · simp [annotationFromAttrs, parseInlineAnnotationValue, parseInlineAnnotationOverride,
        List.lookup_cons, parseI64_formatI64, bind, Except.bind, pure, Except.pure]

lemma annotated_entityType :
    Annotated floats frozen unescape fun annotations =>
      .entityType { t with annotations := annotations } actions functions where
  notText _ := rfl
  leaf before e a hname ha := by
    simp [hname, ha, bind, Except.bind, pure, Except.pure]
  start before e inner hname hinner := by
    simp [hname, hinner, bind, Except.bind, pure, Except.pure]
  accept _ _ := rfl

lemma annotated_operation (kind : String) (o : Operation) :
    Annotated floats frozen unescape fun annotations =>
      .operation kind { o with annotations := annotations } where
  notText _ := rfl
  leaf before e a hname ha := by
    simp [readOperationLeaf, hname, ha, bind, Except.bind, pure, Except.pure]
  start before e inner hname hinner := by
    simp [enterOperationChild, hname, hinner, bind, Except.bind, pure, Except.pure]
  accept _ _ := rfl

lemma consumes_entityType {t : EntityType} (h : ∀ a ∈ t.annotations, a.Readable unescape)
    (s : Schema) (before : List EntityType) :
    Consumes floats frozen unescape (.schema { s with entityTypes := before })
      (emitEntityType floats t) (.schema { s with entityTypes := before ++ [t] }) := by
  have hkeys : Consumes floats frozen unescape
      (.entityType { name := t.name, hasStream := t.hasStream } [] [])
      (emitKey t.keyProperties)
      (.entityType { name := t.name, hasStream := t.hasStream, keyProperties := t.keyProperties }
        [] []) := consumes_key { name := t.name, hasStream := t.hasStream } [] [] t.keyProperties
  have hproperties : Consumes floats frozen unescape
      (.entityType { name := t.name, hasStream := t.hasStream, keyProperties := t.keyProperties }
        [] []) (t.properties.flatMap emitProperty)
      (.entityType { t with navigationProperties := [], annotations := [] } [] []) :=
    .list (fun properties => .entityType { t with
      properties := properties
      navigationProperties := []
      annotations := [] } [] []) t.properties (fun p _ before => consumes_property { t with
      navigationProperties := []
      annotations := [] } [] [] before p) []
  have hnavigation : Consumes floats frozen unescape
      (.entityType { t with navigationProperties := [], annotations := [] } [] [])
      (t.navigationProperties.flatMap emitNavigationProperty)
      (.entityType { t with annotations := [] } [] []) :=
    .list (fun navigation => .entityType { t with
      navigationProperties := navigation
      annotations := [] } [] []) t.navigationProperties
      (fun n _ before => consumes_navigationProperty { t with annotations := [] } [] [] before n) []
  have hannotations : Consumes floats frozen unescape
      (.entityType { t with annotations := [] } [] [])
      (t.annotations.flatMap (emitAnnotationElement floats 8)) (.entityType t [] []) :=
    .list (fun annotations => .entityType { t with annotations := annotations } [] [])
      t.annotations
      (fun a ha before => consumes_annotation (annotated_entityType t [] []) (h a ha) before) []
  have hchildren := ((hkeys.append hproperties).append hnavigation).append hannotations
  refine consumes_block (r := .entityType t [] []) rfl rfl ?_ hchildren ?_ ?_
  · simp [EntityType.attributes, Element.requiredAttr, localName, List.lookup_cons, bind,
      Except.bind, pure, Except.pure]
  · simp [localName, bind, Except.bind, pure, Except.pure]
  · simp [Loop.accept]

/-! #### Operations -/

lemma consumes_parameter (kind : String) (o : Operation) (before : List Parameter)
    (p : Parameter) :
    Consumes floats frozen unescape (.operation kind { o with parameters := before })
      (emitParameter p) (.operation kind { o with parameters := before ++ [p] }) := by
  apply consumes_leaf rfl
  simp [readOperationLeaf, localName, parseParameter_read, bind, Except.bind, pure, Except.pure]

lemma consumes_returnType (kind : String) (o : Operation) (t : Option ReturnType) :
    Consumes floats frozen unescape (.operation kind { o with returnType := none })
      (t.toList.flatMap emitReturnType) (.operation kind { o with returnType := t }) := by
  cases t with
  | none => exact .nil
  | some t =>
    have hleaf : Consumes floats frozen unescape (.operation kind { o with returnType := none })
        (emitReturnType t) (.operation kind { o with returnType := some t }) := by
      apply consumes_leaf rfl
      simp [readOperationLeaf, localName, parseReturnType_read, bind, Except.bind, pure,
        Except.pure]
    simpa using hleaf

/-- The children of an operation. -/
lemma consumes_operationChildren {o : Operation} (h : ∀ a ∈ o.annotations, a.Readable unescape)
    (kind : String) :
    Consumes floats frozen unescape (.operation kind { name := o.name, isBound := o.isBound })
      (o.parameters.flatMap emitParameter ++ o.returnType.toList.flatMap emitReturnType ++
        o.annotations.flatMap (emitAnnotationElement floats 8)) (.operation kind o) := by
  have hparameters : Consumes floats frozen unescape
      (.operation kind { name := o.name, isBound := o.isBound })
      (o.parameters.flatMap emitParameter)
      (.operation kind { o with returnType := none, annotations := [] }) :=
    .list (fun parameters => .operation kind { o with
      parameters := parameters
      returnType := none
      annotations := [] }) o.parameters (fun p _ before => consumes_parameter kind { o with
      returnType := none
      annotations := [] } before p) []
  have hreturn : Consumes floats frozen unescape
      (.operation kind { o with returnType := none, annotations := [] })
      (o.returnType.toList.flatMap emitReturnType)
      (.operation kind { o with annotations := [] }) :=
    consumes_returnType kind { o with annotations := [] } o.returnType
  have hannotations : Consumes floats frozen unescape (.operation kind { o with annotations := [] })
      (o.annotations.flatMap (emitAnnotationElement floats 8)) (.operation kind o) :=
    .list (fun annotations => .operation kind { o with annotations := annotations }) o.annotations
      (fun a ha before => consumes_annotation (annotated_operation kind o) (h a ha) before) []
  exact (hparameters.append hreturn).append hannotations

lemma consumes_operation {kind : String} (hkind : kind = "Action" ∨ kind = "Function")
    {o : Operation} (h : ∀ a ∈ o.annotations, a.Readable unescape)
    (hchildren : o.hasChildren = true) {s : Schema} {l : Loop}
    (haccept : (Loop.schema s).accept unescape (.operation kind o) = .ok l) :
    Consumes floats frozen unescape (.schema s) (emitOperation floats kind o) l := by
  have hlocal : localName kind = kind := by rcases hkind with rfl | rfl <;> simp [localName]
  rw [emitOperation, element, if_pos hchildren]
  refine consumes_block (r := .operation kind o) rfl rfl ?_ (consumes_operationChildren h kind) ?_
    haccept
  · rcases hkind with rfl | rfl <;>
      simp [localName, parseEmptyOperation_read, bind, Except.bind, pure, Except.pure]
  · simp [hlocal, bind, Except.bind, pure, Except.pure]

/-- Without children an operation is not read within a schema. -/
lemma ignores_operation {kind : String} (hkind : kind = "Action" ∨ kind = "Function")
    {o : Operation} (hchildren : o.hasChildren = false) (s : Schema) :
    Consumes floats frozen unescape (.schema s) (emitOperation floats kind o) (.schema s) := by
  rw [emitOperation, element, if_neg (by simp [hchildren])]
  apply consumes_leaf rfl
  rcases hkind with rfl | rfl <;>
    simp [localName, bind, Except.bind, pure, Except.pure]

lemma filter_eq_flatMap {α : Type} (p : α → Bool) (xs : List α) :
    xs.filter p = xs.flatMap fun x => [x].filter p := by
  rw [← List.filter_flatMap, List.flatMap_singleton']

lemma consumes_actions (s : Schema) {xs : List Action}
    (h : ∀ o ∈ xs, ∀ a ∈ o.annotations, a.Readable unescape) :
    Consumes floats frozen unescape (.schema { s with actions := [] })
      (xs.flatMap (emitAction floats))
      (.schema { s with actions := xs.filter (·.hasChildren) }) := by
  rw [filter_eq_flatMap]
  refine Consumes.collect (fun actions => .schema { s with actions := actions }) _ xs
    (fun o ho before => ?_) []
  cases hchildren : o.hasChildren with
  | true =>
    rw [List.filter_singleton, hchildren]
    exact consumes_operation (.inl rfl) (h o ho) hchildren rfl
  | false =>
    rw [List.filter_singleton, hchildren, cond_false, List.append_nil]
    exact ignores_operation (.inl rfl) hchildren { s with actions := before }

lemma consumes_functions (s : Schema) {xs : List Function}
    (h : ∀ o ∈ xs, ∀ a ∈ o.annotations, a.Readable unescape) :
    Consumes floats frozen unescape (.schema { s with functions := [] })
      (xs.flatMap (emitFunction floats))
      (.schema { s with functions := xs.filter (·.hasChildren) }) := by
  rw [filter_eq_flatMap]
  refine Consumes.collect (fun functions => .schema { s with functions := functions }) _ xs
    (fun o ho before => ?_) []
  cases hchildren : o.hasChildren with
  | true =>
    rw [List.filter_singleton, hchildren]
    exact consumes_operation (.inr rfl) (h o ho) hchildren rfl
  | false =>
    rw [List.filter_singleton, hchildren, cond_false, List.append_nil]
    exact ignores_operation (.inr rfl) hchildren { s with functions := before }

/-! #### Containers -/

lemma consumes_navigationBinding (s : EntitySet) (before : List NavigationBinding)
    (b : NavigationBinding) :
    Consumes floats frozen unescape (.entitySet { s with navigationBindings := before })
      (emitNavigationBinding b) (.entitySet { s with navigationBindings := before ++ [b] }) := by
  apply consumes_leaf rfl
  simp [localName, parseNavigationBinding, List.lookup_cons, bind, Except.bind, pure, Except.pure]

lemma consumes_entitySet (c : EntityContainer) (before : List EntitySet) (s : EntitySet) :
    Consumes floats frozen unescape (.entityContainer { c with entitySets := before })
      (emitEntitySet s) (.entityContainer { c with entitySets := before ++ [s] }) := by
  unfold emitEntitySet element
  split_ifs with hchildren
  · have hbindings : Consumes floats frozen unescape
        (.entitySet { s with navigationBindings := [] })
        (s.navigationBindings.flatMap emitNavigationBinding) (.entitySet s) :=
      .list (fun bindings => .entitySet { s with navigationBindings := bindings })
        s.navigationBindings (fun b _ before => consumes_navigationBinding s before b) []
    refine consumes_block (r := .entitySet s) rfl rfl ?_ hbindings ?_ rfl
    · simp [enterContainerChild, localName, parseEntitySetEmpty, List.lookup_cons, bind,
        Except.bind, pure, Except.pure]
    · simp [localName, bind, Except.bind, pure, Except.pure]
  · have hnone : s.navigationBindings = [] := by simpa using hchildren
    apply consumes_leaf rfl
    simp [readContainerLeaf, localName, parseEntitySetEmpty, List.lookup_cons, ← hnone, bind,
      Except.bind, pure, Except.pure]

lemma consumes_actionImport (c : EntityContainer) (before : List ActionImport)
    (i : ActionImport) :
    Consumes floats frozen unescape (.entityContainer { c with actionImports := before })
      (emitActionImport i) (.entityContainer { c with actionImports := before ++ [i] }) := by
  apply consumes_leaf rfl
  simp [readContainerLeaf, localName, parseActionImport, List.lookup_cons, bind, Except.bind, pure,
    Except.pure]

lemma consumes_functionImport (c : EntityContainer) (before : List FunctionImport)
    (i : FunctionImport) :
    Consumes floats frozen unescape (.entityContainer { c with functionImports := before })
      (emitFunctionImport i) (.entityContainer { c with functionImports := before ++ [i] }) := by
  apply consumes_leaf rfl
  simp [readContainerLeaf, localName, parseFunctionImport, List.lookup_cons, bind, Except.bind,
    pure, Except.pure]

/-- The children of a container. -/
lemma consumes_containerChildren (c : EntityContainer) :
    Consumes floats frozen unescape (.entityContainer { name := c.name })
      (c.entitySets.flatMap emitEntitySet ++ c.actionImports.flatMap emitActionImport ++
        c.functionImports.flatMap emitFunctionImport) (.entityContainer c) := by
  have hsets : Consumes floats frozen unescape (.entityContainer { name := c.name })
      (c.entitySets.flatMap emitEntitySet)
      (.entityContainer { name := c.name, entitySets := c.entitySets }) :=
    .list (fun sets => .entityContainer { name := c.name, entitySets := sets }) c.entitySets
      (fun s _ before => consumes_entitySet { name := c.name } before s) []
  have hactions : Consumes floats frozen unescape
      (.entityContainer { name := c.name, entitySets := c.entitySets })
      (c.actionImports.flatMap emitActionImport)
      (.entityContainer { c with functionImports := [] }) :=
    .list (fun imports => .entityContainer { c with
      actionImports := imports
      functionImports := [] }) c.actionImports
      (fun i _ before => consumes_actionImport { c with functionImports := [] } before i) []
  have hfunctions : Consumes floats frozen unescape
      (.entityContainer { c with functionImports := [] })
      (c.functionImports.flatMap emitFunctionImport) (.entityContainer c) :=
    .list (fun imports => .entityContainer { c with functionImports := imports })
      c.functionImports (fun i _ before => consumes_functionImport c before i) []
  exact (hsets.append hactions).append hfunctions

lemma consumes_containers (s : Schema) (xs : List EntityContainer) :
    Consumes floats frozen unescape (.schema { s with entityContainers := [] })
      (xs.flatMap emitEntityContainer)
      (.schema { s with entityContainers := xs.filter (·.hasChildren) }) := by
  rw [filter_eq_flatMap]
  refine Consumes.collect (fun containers => .schema { s with entityContainers := containers }) _ xs
    (fun c _ before => ?_) []
  unfold emitEntityContainer element
  cases hchildren : c.hasChildren with
  | true =>
    rw [List.filter_singleton, hchildren, if_pos rfl]
    refine consumes_block (r := .entityContainer c) rfl rfl ?_ (consumes_containerChildren c) ?_ rfl
    · simp [localName, Element.requiredAttr, bind, Except.bind, pure, Except.pure]
    · simp [localName, bind, Except.bind, pure, Except.pure]
  | false =>
    rw [List.filter_singleton, hchildren, cond_false, List.append_nil, if_neg (by simp)]
    apply consumes_leaf rfl
    simp [localName, bind, Except.bind, pure, Except.pure]

/-! #### Schemas and documents -/

/-- Every annotation of the schema is read back as it was written. -/
def Schema.Readable (unescape : String → Except String String) (s : Schema) : Prop :=
  (∀ t ∈ s.entityTypes, ∀ a ∈ t.annotations, a.Readable unescape) ∧
    (∀ o ∈ s.actions, ∀ a ∈ o.annotations, a.Readable unescape) ∧
    ∀ o ∈ s.functions, ∀ a ∈ o.annotations, a.Readable unescape

/-- What is left of a schema that is written and read. -/
def Schema.reread (s : Schema) : Schema :=
  { s with
    actions := s.actions.filter (·.hasChildren)
    functions := s.functions.filter (·.hasChildren)
    entityContainers := s.entityContainers.filter (·.hasChildren) }

lemma consumes_schemaChildren {s : Schema} (h : s.Readable unescape) :
    Consumes floats frozen unescape (.schema { nameSpace := s.nameSpace })
      (s.terms.flatMap emitTerm ++ s.enumTypes.flatMap emitEnumType ++
        s.entityTypes.flatMap (emitEntityType floats) ++ s.actions.flatMap (emitAction floats) ++
        s.functions.flatMap (emitFunction floats) ++
        s.entityContainers.flatMap emitEntityContainer) (.schema s.reread) := by
  have hterms : Consumes floats frozen unescape (.schema { nameSpace := s.nameSpace })
      (s.terms.flatMap emitTerm) (.schema { nameSpace := s.nameSpace, terms := s.terms }) :=
    .list (fun terms => .schema { nameSpace := s.nameSpace, terms := terms }) s.terms
      (fun t _ before => consumes_term { nameSpace := s.nameSpace } before t) []
  have henums : Consumes floats frozen unescape
      (.schema { nameSpace := s.nameSpace, terms := s.terms })
      (s.enumTypes.flatMap emitEnumType)
      (.schema { nameSpace := s.nameSpace, terms := s.terms, enumTypes := s.enumTypes }) :=
    .list (fun enums => .schema { nameSpace := s.nameSpace, terms := s.terms, enumTypes := enums })
      s.enumTypes
      (fun t _ before => consumes_enumType { nameSpace := s.nameSpace, terms := s.terms } before t)
      []
  have hentities : Consumes floats frozen unescape
      (.schema { nameSpace := s.nameSpace, terms := s.terms, enumTypes := s.enumTypes })
      (s.entityTypes.flatMap (emitEntityType floats))
      (.schema { s with actions := [], functions := [], entityContainers := [] }) :=
    .list (fun types => .schema { s with
      entityTypes := types
      actions := []
      functions := []
      entityContainers := [] }) s.entityTypes
      (fun t ht before => consumes_entityType (h.1 t ht) { s with
        actions := []
        functions := []
        entityContainers := [] } before) []
  have hactions : Consumes floats frozen unescape
      (.schema { s with actions := [], functions := [], entityContainers := [] })
      (s.actions.flatMap (emitAction floats))
      (.schema { s.reread with functions := [], entityContainers := [] }) :=
    consumes_actions { s with functions := [], entityContainers := [] } h.2.1
  have hfunctions : Consumes floats frozen unescape
      (.schema { s.reread with functions := [], entityContainers := [] })
      (s.functions.flatMap (emitFunction floats))
      (.schema { s.reread with entityContainers := [] }) :=
    consumes_functions { s.reread with entityContainers := [] } h.2.2
  have hcontainers : Consumes floats frozen unescape
      (.schema { s.reread with entityContainers := [] })
      (s.entityContainers.flatMap emitEntityContainer) (.schema s.reread) :=
    consumes_containers s.reread s.entityContainers
  exact ((((hterms.append henums).append hentities).append hactions).append hfunctions).append
    hcontainers

/-- What is left of a document that is written and read. -/
def CsdlDocument.reread (d : CsdlDocument) : CsdlDocument :=
  { d with schemas := d.schemas.map Schema.reread }

lemma run_block {st st₁ st₂ st₃ : ParserState} {indent : Nat} {name : String}
    {attributes : List (String × String)} {children : List Piece}
    (hstart : st.step floats frozen unescape (line indent (.start name attributes)).token =
      .ok st₁)
    (hchildren : st₁.run floats frozen unescape (children.map Piece.token) = .ok st₂)
    (hend : st₂.step floats frozen unescape (line indent (.end name)).token = .ok st₃) :
    st.run floats frozen unescape ((block indent name attributes children).map Piece.token) =
      .ok st₃ := by
  unfold ParserState.run at hchildren ⊢
  rw [block, List.cons_append, List.map_cons, List.map_append, List.foldlM_cons, hstart]
  simp only [bind, Except.bind]
  rw [List.foldlM_append, hchildren]
  simp [bind, Except.bind, hend, pure, Except.pure]

lemma run_schema {s : Schema} (h : s.Readable unescape) (d : CsdlDocument) :
    ParserState.run floats frozen unescape ⟨d, []⟩ ((emitSchema floats s).map Piece.token) =
      .ok ⟨{ d with schemas := d.schemas ++ [s.reread] }, []⟩ := by
  refine run_block ?_ (consumes_schemaChildren h d []) ?_
  · simp [ParserState.step, documentOnToken, line, Piece.token, Markup.event, localName,
      Element.requiredAttr, bind, Except.bind, pure, Except.pure]
  · simp [ParserState.step, ParserState.give, Loop.onToken, line, Piece.token, Markup.event,
      localName, bind, Except.bind, pure, Except.pure]

lemma run_schemas {ss : List Schema} (h : ∀ s ∈ ss, s.Readable unescape) (d : CsdlDocument) :
    ParserState.run floats frozen unescape ⟨d, []⟩
        ((ss.flatMap (emitSchema floats)).map Piece.token) =
      .ok ⟨{ d with schemas := d.schemas ++ ss.map Schema.reread }, []⟩ := by
  induction ss generalizing d with
  | nil => simp [ParserState.run, pure, Except.pure]
  | cons s ss ih =>
    have hrest := ih (fun s hs => h s (List.mem_cons_of_mem _ hs))
      { d with schemas := d.schemas ++ [s.reread] }
    have hfirst : ParserState.run floats frozen unescape ⟨d, []⟩
        ((emitSchema floats s).map Piece.token) =
        .ok ⟨{ d with schemas := d.schemas ++ [s.reread] }, []⟩ := run_schema (h s (by simp)) d
    unfold ParserState.run at hfirst hrest ⊢
    rw [List.flatMap_cons, List.map_append, List.foldlM_append, hfirst]
    simpa [bind, Except.bind] using hrest

theorem parseTokens_emitDocument {d : CsdlDocument} (h : ∀ s ∈ d.schemas, s.Readable unescape) :
    parseTokens floats frozen unescape ((emitDocument floats d).map Piece.token) =
      .ok d.reread := by
  have hservices : ParserState.run floats frozen unescape ⟨{ version := d.version }, []⟩
      ((block 2 "edmx:DataServices" [] (d.schemas.flatMap (emitSchema floats))).map Piece.token) =
      .ok ⟨d.reread, []⟩ := by
    refine run_block ?_ (run_schemas h { version := d.version }) ?_
    · simp [ParserState.step, documentOnToken, line, Piece.token, Markup.event, localName]
    · simp [ParserState.step, documentOnToken, line, Piece.token, Markup.event, CsdlDocument.reread]
  have hrun : ParserState.run floats frozen unescape {} ((emitDocument floats d).map Piece.token) =
      .ok ⟨d.reread, []⟩ := by
    refine run_block ?_ hservices ?_
    · simp [ParserState.step, documentOnToken, line, Piece.token, Markup.event, localName, bind,
        Except.bind, pure, Except.pure]
    · simp [ParserState.step, documentOnToken, line, Piece.token, Markup.event]
  simp [parseTokens, hrun, ParserState.finish, bind, Except.bind]

end Elements

end Temper.Spec.Csdl
