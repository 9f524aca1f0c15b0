import Mathlib

/-!
# CSDL documents

What the parser of OData CSDL returns and what is written back as XML. Floating-point values stand
as their bits.
-/

namespace Temper.Spec.Csdl

abbrev F64 := UInt64

/-- How floating-point numbers are read and written. -/
structure FloatFormat where
  parse : String → Option F64
  format : F64 → String

inductive AnnotationValue
  | string (value : String)
  | navigationPropertyPath (path : String)
  | float (value : F64)
  | bool (value : Bool)
  | int (value : Int64)
  | collection (items : List String)
  | record (entries : Std.ExtTreeMap String String compare)
  deriving DecidableEq

structure Annotation where
  term : String
  value : AnnotationValue
  deriving DecidableEq

structure Property where
  name : String
  typeName : String
  nullable : Bool
  defaultValue : Option String
  precision : Option UInt32
  scale : Option UInt32
  deriving DecidableEq

structure ReferentialConstraint where
  property : String
  referencedProperty : String
  deriving DecidableEq

structure NavigationProperty where
  name : String
  typeName : String
  nullable : Bool
  containsTarget : Bool
  referentialConstraints : List ReferentialConstraint
  deriving DecidableEq

structure EntityType where
  name : String
  keyProperties : List String := []
  properties : List Property := []
  navigationProperties : List NavigationProperty := []
  annotations : List Annotation := []
  hasStream : Bool := false
  deriving DecidableEq

structure EnumMember where
  name : String
  value : Option Int64
  deriving DecidableEq

structure EnumType where
  name : String
  members : List EnumMember := []
  deriving DecidableEq

structure Parameter where
  name : String
  typeName : String
  nullable : Bool
  defaultValue : Option String
  deriving DecidableEq

structure ReturnType where
  typeName : String
  nullable : Bool
  precision : Option UInt32
  scale : Option UInt32
  deriving DecidableEq

/-- Actions and functions have the same shape. -/
structure Operation where
  name : String
  isBound : Bool
  parameters : List Parameter := []
  returnType : Option ReturnType := none
  annotations : List Annotation := []
  deriving DecidableEq

abbrev Action := Operation

abbrev Function := Operation

structure NavigationBinding where
  path : String
  target : String
  deriving DecidableEq

structure EntitySet where
  name : String
  entityType : String
  navigationBindings : List NavigationBinding := []
  deriving DecidableEq

structure ActionImport where
  name : String
  action : String
  deriving DecidableEq

structure FunctionImport where
  name : String
  function : String
  deriving DecidableEq

structure EntityContainer where
  name : String
  entitySets : List EntitySet := []
  actionImports : List ActionImport := []
  functionImports : List FunctionImport := []
  deriving DecidableEq

structure Term where
  name : String
  typeName : String
  appliesTo : Option String
  description : Option String
  deriving DecidableEq

structure Schema where
  nameSpace : String
  entityTypes : List EntityType := []
  enumTypes : List EnumType := []
  actions : List Action := []
  functions : List Function := []
  entityContainers : List EntityContainer := []
  terms : List Term := []
  deriving DecidableEq

structure CsdlDocument where
  version : String := ""
  schemas : List Schema := []
  deriving DecidableEq

/-- The entity that an action is bound to. -/
def Operation.bindingType (o : Operation) : Option String :=
  if o.isBound then o.parameters.head?.map (·.typeName) else none

end Temper.Spec.Csdl
