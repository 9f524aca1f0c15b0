import Mathlib
import Temper.Spec.Csdl.Emit

/-!
# What is written is well-formed

Tags are balanced, and neither the values of attributes nor the characters between tags can be
taken for markup.
-/

namespace Temper.Spec.Csdl

/-! ### Escaping -/

lemma escapeChar_safe (c : Char) : '<' ∉ (escapeChar c).toList ∧ '"' ∉ (escapeChar c).toList := by
  unfold escapeChar
  split <;> simp_all [eq_comm]

lemma escapeTextChar_safe (c : Char) : '<' ∉ (escapeTextChar c).toList := by
  unfold escapeTextChar
  split <;> simp_all [eq_comm]

lemma xmlEscape_safe (s : String) :
    '<' ∉ (xmlEscape s).toList ∧ '"' ∉ (xmlEscape s).toList := by
  simp only [xmlEscape, String.toList_join, List.mem_flatMap, List.mem_map]
  constructor
  · rintro ⟨_, ⟨c, -, rfl⟩, hc⟩
    exact (escapeChar_safe c).1 hc
  · rintro ⟨_, ⟨c, -, rfl⟩, hc⟩
    exact (escapeChar_safe c).2 hc

lemma xmlEscapeText_safe (s : String) : '<' ∉ (xmlEscapeText s).toList := by
  simp only [xmlEscapeText, String.toList_join, List.mem_flatMap, List.mem_map]
  rintro ⟨_, ⟨c, -, rfl⟩, hc⟩
  exact escapeTextChar_safe c hc

/-! ### Attributes -/

/-- The keys of attributes are some of the given names, in order. -/
def KeysWithin (attributes : List (String × String)) (keys : List String) : Prop :=
  (attributes.map (·.1)).Sublist keys

lemma KeysWithin.append {xs ys : List (String × String)} {keys keys' : List String}
    (hxs : KeysWithin xs keys) (hys : KeysWithin ys keys') :
    KeysWithin (xs ++ ys) (keys ++ keys') := by
  unfold KeysWithin
  rw [List.map_append]
  exact List.Sublist.append hxs hys

lemma keysWithin_optional (name : String) (value : Option String) :
    KeysWithin (optionalAttribute name value) [name] := by
  cases value <;> simp [KeysWithin, optionalAttribute]

lemma keysWithin_flag (written : Bool) (name value : String) :
    KeysWithin (flagAttribute written name value) [name] := by
  cases written <;> simp [KeysWithin, flagAttribute]

lemma keysWithin_self (attributes : List (String × String)) :
    KeysWithin attributes (attributes.map (·.1)) :=
  List.Sublist.refl _

/-- Attributes that may be written. -/
def Writable (attributes : List (String × String)) : Prop :=
  (attributes.map (·.1)).Nodup ∧ ∀ a ∈ attributes, IsName a.1

lemma KeysWithin.writable {attributes : List (String × String)} {keys : List String}
    (h : KeysWithin attributes keys) (hkeys : keys.Nodup ∧ ∀ key ∈ keys, IsName key) :
    Writable attributes := by
  refine ⟨hkeys.1.sublist h, fun a ha => hkeys.2 _ (h.subset ?_)⟩
  exact List.mem_map_of_mem ha

lemma writable_nil : Writable [] := ⟨by simp, by simp⟩

lemma writable_one {key value : String} (h : IsName key) : Writable [(key, value)] :=
  ⟨by simp, by simpa using h⟩

lemma writable_two {key key' value value' : String} (h : IsName key ∧ IsName key' ∧ key ≠ key') :
    Writable [(key, value), (key', value')] :=
  ⟨by simpa using h.2.2, by simpa using ⟨h.1, h.2.1⟩⟩

/-! ### Pieces -/

lemma Balanced.append {xs ys : List Markup} (hxs : Balanced xs) (hys : Balanced ys) :
    Balanced (xs ++ ys) := by
  induction hxs with
  | nil => exact hys
  | empty _ ih => exact .empty ih
  | @element name attributes inner rest hinner _ _ ih =>
    have happend : Balanced (.start name attributes :: inner ++ .end name :: (rest ++ ys)) :=
      .element hinner ih
    simpa using happend

lemma WellFormed.nil : WellFormed [] := ⟨.nil, by simp⟩

lemma WellFormed.append {ps qs : List Piece} (hps : WellFormed ps) (hqs : WellFormed qs) :
    WellFormed (ps ++ qs) := by
  constructor
  · rw [List.map_append]
    exact hps.balanced.append hqs.balanced
  · intro p hp
    rcases List.mem_append.mp hp with hp | hp
    · exact hps.safe p hp
    · exact hqs.safe p hp

lemma WellFormed.flatMap {α : Type} {emit : α → List Piece} {xs : List α}
    (h : ∀ x ∈ xs, WellFormed (emit x)) : WellFormed (xs.flatMap emit) := by
  induction xs with
  | nil => exact .nil
  | cons x xs ih =>
    exact (h x (by simp)).append (ih fun y hy => h y (List.mem_cons_of_mem _ hy))

lemma line_safe {indent : Nat} {markup : Markup} (hname : IsName markup.name)
    (hattributes : Writable markup.attributes) : (line indent markup).Safe := by
  constructor
  · simp [line]
  · exact hname
  · exact hattributes.2
  · exact hattributes.1
  · exact fun a _ => xmlEscape_safe a.2

variable {indent : Nat} {name : String} {attributes : List (String × String)}

lemma wellFormed_leaf (hname : IsName name) (hattributes : Writable attributes) :
    WellFormed (leaf indent name attributes) := by
  constructor
  · exact .empty .nil
  · intro p hp
    obtain rfl := List.mem_singleton.mp hp
    exact line_safe hname hattributes

lemma wellFormed_block {children : List Piece} (hname : IsName name)
    (hattributes : Writable attributes) (hchildren : WellFormed children) :
    WellFormed (block indent name attributes children) := by
  constructor
  · have hbalanced : Balanced
        (.start name attributes :: children.map (·.markup) ++ .end name :: []) :=
      .element hchildren.balanced .nil
    simpa [block, line] using hbalanced
  · intro p hp
    simp only [block, List.cons_append, List.mem_cons, List.mem_append] at hp
    rcases hp with rfl | hp | rfl | hp
    · exact line_safe hname hattributes
    · exact hchildren.safe p hp
    · exact line_safe hname writable_nil
    · cases hp

lemma wellFormed_element {hasChildren : Bool} {children : List Piece} (hname : IsName name)
    (hattributes : Writable attributes) (hchildren : WellFormed children) :
    WellFormed (element hasChildren indent name attributes children) := by
  unfold element
  split_ifs
  · exact wellFormed_block hname hattributes hchildren
  · exact wellFormed_leaf hname hattributes

/-! ### Elements -/

lemma wellFormed_term (t : Term) : WellFormed (emitTerm t) := by
  have hkeys : KeysWithin t.attributes ["Name", "Type", "AppliesTo", "Description"] :=
    ((keysWithin_self _).append (keysWithin_optional _ _)).append (keysWithin_optional _ _)
  exact wellFormed_leaf (by decide) (hkeys.writable (by decide))

lemma wellFormed_enumType (t : EnumType) : WellFormed (emitEnumType t) := by
  refine wellFormed_block (by decide) (writable_one (by decide)) (.flatMap ?_)
  intro m _
  have hkeys : KeysWithin m.attributes ["Name", "Value"] :=
    (keysWithin_self _).append (keysWithin_optional _ _)
  exact wellFormed_leaf (by decide) (hkeys.writable (by decide))

lemma wellFormed_key (keys : List String) : WellFormed (emitKey keys) := by
  unfold emitKey
  split_ifs
  · exact .nil
  · exact wellFormed_block (by decide) writable_nil
      (.flatMap fun key _ => wellFormed_leaf (by decide) (writable_one (by decide)))

lemma wellFormed_property (p : Property) : WellFormed (emitProperty p) := by
  have hkeys : KeysWithin p.attributes
      ["Name", "Type", "Nullable", "DefaultValue", "Precision", "Scale"] :=
    ((((keysWithin_self _).append (keysWithin_flag _ _ _)).append
      (keysWithin_optional _ _)).append (keysWithin_optional _ _)).append (keysWithin_optional _ _)
  exact wellFormed_leaf (by decide) (hkeys.writable (by decide))

lemma wellFormed_navigationProperty (n : NavigationProperty) :
    WellFormed (emitNavigationProperty n) := by
  have hkeys : KeysWithin n.attributes ["Name", "Type", "Nullable", "ContainsTarget"] :=
    ((keysWithin_self _).append (keysWithin_flag _ _ _)).append (keysWithin_flag _ _ _)
  exact wellFormed_element (by decide) (hkeys.writable (by decide))
    (.flatMap fun c _ => wellFormed_leaf (by decide) (writable_two (by decide)))

lemma wellFormed_item (indent : Nat) (item : String) : WellFormed (emitItem indent item) := by
  constructor
  · have hbalanced : Balanced (.start "String" [] :: [] ++ .end "String" :: []) :=
      .element .nil .nil
    simpa [emitItem, line] using hbalanced
  · intro p hp
    simp only [emitItem, List.mem_cons, List.not_mem_nil, or_false] at hp
    rcases hp with rfl | rfl
    · exact line_safe (by decide) writable_nil
    · have hname : IsName "String" := by decide
      exact ⟨xmlEscapeText_safe item, hname, by simp [Markup.attributes],
        by simp [Markup.attributes], by simp [Markup.attributes]⟩

variable (floats : FloatFormat)

lemma wellFormed_annotation (indent : Nat) (a : Annotation) :
    WellFormed (emitAnnotationElement floats indent a) := by
  unfold emitAnnotationElement
  split
  case h_6 items _ =>
    refine wellFormed_block (by decide) (writable_one (by decide)) ?_
    exact wellFormed_block (by decide) writable_nil (.flatMap fun item _ => wellFormed_item _ item)
  case h_7 entries _ =>
    refine wellFormed_block (by decide) (writable_one (by decide)) ?_
    exact wellFormed_block (by decide) writable_nil
      (.flatMap fun entry _ => wellFormed_leaf (by decide) (writable_two (by decide)))
  all_goals exact wellFormed_leaf (by decide) (writable_two (by decide))

lemma wellFormed_entityType (t : EntityType) : WellFormed (emitEntityType floats t) := by
  have hkeys : KeysWithin t.attributes ["Name", "HasStream"] :=
    (keysWithin_self _).append (keysWithin_flag _ _ _)
  refine wellFormed_block (by decide) (hkeys.writable (by decide)) ?_
  exact (((wellFormed_key _).append (.flatMap fun p _ => wellFormed_property p)).append
    (.flatMap fun n _ => wellFormed_navigationProperty n)).append
    (.flatMap fun a _ => wellFormed_annotation floats 8 a)

lemma wellFormed_operation {kind : String} (hkind : IsName kind) (o : Operation) :
    WellFormed (emitOperation floats kind o) := by
  have hkeys : KeysWithin o.attributes ["Name", "IsBound"] :=
    (keysWithin_self _).append (keysWithin_flag _ _ _)
  refine wellFormed_element hkind (hkeys.writable (by decide)) (.append (.append ?_ ?_) ?_)
  · refine .flatMap fun p _ => ?_
    have hkeys : KeysWithin p.attributes ["Name", "Type", "Nullable", "DefaultValue"] :=
      ((keysWithin_self _).append (keysWithin_flag _ _ _)).append (keysWithin_optional _ _)
    exact wellFormed_leaf (by decide) (hkeys.writable (by decide))
  · refine .flatMap fun t _ => ?_
    have hkeys : KeysWithin t.attributes ["Type", "Nullable", "Precision", "Scale"] :=
      (((keysWithin_self _).append (keysWithin_flag _ _ _)).append
        (keysWithin_optional _ _)).append (keysWithin_optional _ _)
    exact wellFormed_leaf (by decide) (hkeys.writable (by decide))
  · exact .flatMap fun a _ => wellFormed_annotation floats 8 a

lemma wellFormed_entityContainer (c : EntityContainer) : WellFormed (emitEntityContainer c) := by
  refine wellFormed_element (by decide) (writable_one (by decide))
    (.append (.append ?_ ?_) ?_)
  · refine .flatMap fun s _ => ?_
    exact wellFormed_element (by decide) (writable_two (by decide))
      (.flatMap fun b _ => wellFormed_leaf (by decide) (writable_two (by decide)))
  · exact .flatMap fun i _ =>
      wellFormed_leaf (by decide) (writable_two (by decide))
  · exact .flatMap fun i _ =>
      wellFormed_leaf (by decide) (writable_two (by decide))

lemma wellFormed_schema (s : Schema) : WellFormed (emitSchema floats s) := by
  refine wellFormed_block (by decide) (writable_two (by decide))
    (.append (.append (.append (.append (.append ?_ ?_) ?_) ?_) ?_) ?_)
  · exact .flatMap fun t _ => wellFormed_term t
  · exact .flatMap fun t _ => wellFormed_enumType t
  · exact .flatMap fun t _ => wellFormed_entityType floats t
  · exact .flatMap fun o _ => wellFormed_operation floats (by decide) o
  · exact .flatMap fun o _ => wellFormed_operation floats (by decide) o
  · exact .flatMap fun c _ => wellFormed_entityContainer c

theorem wellFormed_document (d : CsdlDocument) : WellFormed (emitDocument floats d) := by
  refine wellFormed_block (by decide) (writable_two (by decide)) ?_
  exact wellFormed_block (by decide) writable_nil (.flatMap fun s _ => wellFormed_schema floats s)

end Temper.Spec.Csdl
