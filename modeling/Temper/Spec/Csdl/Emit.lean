import Mathlib
import Temper.Spec.Csdl.Types
import Temper.Spec.Csdl.Xml

/-!
# Writing a document as XML

Every element is written on a line of its own, without an end tag where it has no children. The
entity types and enumerations are the exception: they always have one.
-/

namespace Temper.Spec.Csdl

variable (floats : FloatFormat)

/-! ### Attributes -/

def optionalAttribute (name : String) (value : Option String) : List (String × String) :=
  value.toList.map fun value => (name, value)

/-- An attribute that is only written for one of two values. -/
def flagAttribute (written : Bool) (name value : String) : List (String × String) :=
  if written then [(name, value)] else []

def formatU32 (n : UInt32) : String := toString n.toNat

def formatI64 (n : Int64) : String := toString n.toInt

/-! ### Elements -/

def Term.attributes (t : Term) : List (String × String) :=
  [("Name", t.name), ("Type", t.typeName)] ++ optionalAttribute "AppliesTo" t.appliesTo ++
    optionalAttribute "Description" t.description

def emitTerm (t : Term) : List Piece := leaf 6 "Term" t.attributes

def EnumMember.attributes (m : EnumMember) : List (String × String) :=
  [("Name", m.name)] ++ optionalAttribute "Value" (m.value.map formatI64)

def emitEnumMember (m : EnumMember) : List Piece := leaf 8 "Member" m.attributes

def emitEnumType (t : EnumType) : List Piece :=
  block 6 "EnumType" [("Name", t.name)] (t.members.flatMap emitEnumMember)

def emitKey (keys : List String) : List Piece :=
  if keys.isEmpty then []
  else block 8 "Key" [] (keys.flatMap fun key => leaf 10 "PropertyRef" [("Name", key)])

def Property.attributes (p : Property) : List (String × String) :=
  [("Name", p.name), ("Type", p.typeName)] ++ flagAttribute (!p.nullable) "Nullable" "false" ++
    optionalAttribute "DefaultValue" p.defaultValue ++
    optionalAttribute "Precision" (p.precision.map formatU32) ++
    optionalAttribute "Scale" (p.scale.map formatU32)

def emitProperty (p : Property) : List Piece := leaf 8 "Property" p.attributes

def emitReferentialConstraint (c : ReferentialConstraint) : List Piece :=
  leaf 10 "ReferentialConstraint"
    [("Property", c.property), ("ReferencedProperty", c.referencedProperty)]

/-- An element with an end tag only if it has children. -/
def element (hasChildren : Bool) (indent : Nat) (name : String)
    (attributes : List (String × String)) (children : List Piece) : List Piece :=
  if hasChildren then block indent name attributes children else leaf indent name attributes

def NavigationProperty.attributes (n : NavigationProperty) : List (String × String) :=
  [("Name", n.name), ("Type", n.typeName)] ++ flagAttribute (!n.nullable) "Nullable" "false" ++
    flagAttribute n.containsTarget "ContainsTarget" "true"

def emitNavigationProperty (n : NavigationProperty) : List Piece :=
  element (!n.referentialConstraints.isEmpty) 8 "NavigationProperty" n.attributes
    (n.referentialConstraints.flatMap emitReferentialConstraint)

/-- An item of a collection, with its tags around it. -/
def emitItem (indent : Nat) (item : String) : List Piece :=
  [line indent (.start "String" []), ⟨xmlEscapeText item, .end "String"⟩]

def emitAnnotationElement (indent : Nat) (a : Annotation) : List Piece :=
  match a.value with
  | .string value => leaf indent "Annotation" [("Term", a.term), ("String", value)]
  | .navigationPropertyPath path =>
    leaf indent "Annotation" [("Term", a.term), ("NavigationPropertyPath", path)]
  | .float value => leaf indent "Annotation" [("Term", a.term), ("Float", floats.format value)]
  | .bool value => leaf indent "Annotation" [("Term", a.term), ("Bool", toString value)]
  | .int value => leaf indent "Annotation" [("Term", a.term), ("Int", formatI64 value)]
  | .collection items =>
    block indent "Annotation" [("Term", a.term)]
      (block (indent + 2) "Collection" [] (items.flatMap (emitItem (indent + 4))))
  | .record entries =>
    block indent "Annotation" [("Term", a.term)]
      (block (indent + 2) "Record" [] (entries.toList.flatMap fun (key, value) =>
        leaf (indent + 4) "PropertyValue" [("Property", key), ("String", value)]))

def EntityType.attributes (t : EntityType) : List (String × String) :=
  [("Name", t.name)] ++ flagAttribute t.hasStream "HasStream" "true"

def emitEntityType (t : EntityType) : List Piece :=
  block 6 "EntityType" t.attributes
    (emitKey t.keyProperties ++ t.properties.flatMap emitProperty ++
      t.navigationProperties.flatMap emitNavigationProperty ++
      t.annotations.flatMap (emitAnnotationElement floats 8))

def Parameter.attributes (p : Parameter) : List (String × String) :=
  [("Name", p.name), ("Type", p.typeName)] ++ flagAttribute (!p.nullable) "Nullable" "false" ++
    optionalAttribute "DefaultValue" p.defaultValue

def emitParameter (p : Parameter) : List Piece := leaf 8 "Parameter" p.attributes

def ReturnType.attributes (t : ReturnType) : List (String × String) :=
  [("Type", t.typeName)] ++ flagAttribute (!t.nullable) "Nullable" "false" ++
    optionalAttribute "Precision" (t.precision.map formatU32) ++
    optionalAttribute "Scale" (t.scale.map formatU32)

def emitReturnType (t : ReturnType) : List Piece := leaf 8 "ReturnType" t.attributes

def Operation.attributes (o : Operation) : List (String × String) :=
  [("Name", o.name)] ++ flagAttribute o.isBound "IsBound" "true"

def Operation.hasChildren (o : Operation) : Bool :=
  !o.parameters.isEmpty || o.returnType.isSome || !o.annotations.isEmpty

/-- An action or a function. -/
def emitOperation (kind : String) (o : Operation) : List Piece :=
  element o.hasChildren 6 kind o.attributes
    (o.parameters.flatMap emitParameter ++ o.returnType.toList.flatMap emitReturnType ++
      o.annotations.flatMap (emitAnnotationElement floats 8))

def emitAction : Action → List Piece := emitOperation floats "Action"

def emitFunction : Function → List Piece := emitOperation floats "Function"

def emitNavigationBinding (b : NavigationBinding) : List Piece :=
  leaf 10 "NavigationPropertyBinding" [("Path", b.path), ("Target", b.target)]

def emitEntitySet (s : EntitySet) : List Piece :=
  element (!s.navigationBindings.isEmpty) 8 "EntitySet"
    [("Name", s.name), ("EntityType", s.entityType)]
    (s.navigationBindings.flatMap emitNavigationBinding)

def emitActionImport (i : ActionImport) : List Piece :=
  leaf 8 "ActionImport" [("Name", i.name), ("Action", i.action)]

def emitFunctionImport (i : FunctionImport) : List Piece :=
  leaf 8 "FunctionImport" [("Name", i.name), ("Function", i.function)]

def EntityContainer.hasChildren (c : EntityContainer) : Bool :=
  !c.entitySets.isEmpty || !c.actionImports.isEmpty || !c.functionImports.isEmpty

def emitEntityContainer (c : EntityContainer) : List Piece :=
  element c.hasChildren 6 "EntityContainer" [("Name", c.name)]
    (c.entitySets.flatMap emitEntitySet ++ c.actionImports.flatMap emitActionImport ++
      c.functionImports.flatMap emitFunctionImport)

def emitSchema (s : Schema) : List Piece :=
  block 4 "Schema"
    [("Namespace", s.nameSpace), ("xmlns", "http://docs.oasis-open.org/odata/ns/edm")]
    (s.terms.flatMap emitTerm ++ s.enumTypes.flatMap emitEnumType ++
      s.entityTypes.flatMap (emitEntityType floats) ++ s.actions.flatMap (emitAction floats) ++
      s.functions.flatMap (emitFunction floats) ++ s.entityContainers.flatMap emitEntityContainer)

/-- The tags of a document. -/
def emitDocument (d : CsdlDocument) : List Piece :=
  block 0 "edmx:Edmx"
    [("Version", d.version), ("xmlns:edmx", "http://docs.oasis-open.org/odata/ns/edmx")]
    (block 2 "edmx:DataServices" [] (d.schemas.flatMap (emitSchema floats)))

def emitCsdlXml (d : CsdlDocument) : String := document (emitDocument floats d)

end Temper.Spec.Csdl
