import Mathlib
import Temper.Spec.Csdl.Types
import Temper.Spec.Csdl.Xml
import Temper.Spec.Naming

/-!
# Reading a document from XML

The parser is a loop over the tags for each kind of element that has children. A loop that meets
the start of such an element runs the loop of that element and goes on behind it. Here the loops
that are running form a stack, the innermost first: a tag is seen by the innermost loop, which may
go on, start another loop, or return what it has read to the loop around it.
-/

namespace Temper.Spec.Csdl

variable (floats : FloatFormat) (frozen : Bool)

/-! ### Numbers -/

/-- `str::parse::<u32>`. -/
def parseU32 (s : String) : Option UInt32 :=
  (parseUsize s).bind fun n => if n < 2 ^ 32 then some (UInt32.ofNat n) else none

/-- `str::parse::<i64>`: a sign, if any, then decimal digits. -/
def parseI64 (s : String) : Option Int64 :=
  match s.toList with
  | '-' :: digits =>
    if digits.head? = some '+' then none
    else (parseUsize (String.ofList digits)).bind fun n =>
      if n ≤ 2 ^ 63 then some (Int64.ofInt (-n)) else none
  | _ => (parseUsize s).bind fun n => if n < 2 ^ 63 then some (Int64.ofInt n) else none

/-! ### Elements by their attributes -/

def parseProperty (e : Element) : Except CsdlParseError Property := do
  pure {
    name := (← e.attrStr "Name").getD ""
    typeName := (← e.attrStr "Type").getD "Edm.String"
    nullable := (← e.attrStr "Nullable").all (· ≠ "false")
    defaultValue := ← e.attrStr "DefaultValue"
    precision := (← e.attrStr "Precision").bind parseU32
    scale := (← e.attrStr "Scale").bind parseU32 }

def parseParameter (e : Element) : Except CsdlParseError Parameter := do
  pure {
    name := (← e.attrStr "Name").getD ""
    typeName := (← e.attrStr "Type").getD "Edm.String"
    nullable := (← e.attrStr "Nullable").all (· ≠ "false")
    defaultValue := ← e.attrStr "DefaultValue" }

def parseReturnType (e : Element) : Except CsdlParseError ReturnType := do
  pure {
    typeName := (← e.attrStr "Type").getD ""
    nullable := (← e.attrStr "Nullable").all (· ≠ "false")
    precision := (← e.attrStr "Precision").bind parseU32
    scale := (← e.attrStr "Scale").bind parseU32 }

def parseTerm (e : Element) : Except CsdlParseError Term := do
  pure {
    name := (← e.attrStr "Name").getD ""
    typeName := (← e.attrStr "Type").getD ""
    appliesTo := ← e.attrStr "AppliesTo"
    description := ← e.attrStr "Description" }

def parseEntitySetEmpty (e : Element) : Except CsdlParseError EntitySet := do
  pure {
    name := (← e.attrStr "Name").getD ""
    entityType := (← e.attrStr "EntityType").getD "" }

def parseActionImport (e : Element) : Except CsdlParseError ActionImport := do
  pure {
    name := (← e.attrStr "Name").getD ""
    action := (← e.attrStr "Action").getD "" }

def parseFunctionImport (e : Element) : Except CsdlParseError FunctionImport := do
  pure {
    name := (← e.attrStr "Name").getD ""
    function := (← e.attrStr "Function").getD "" }

def navPropFromAttrs (e : Element) : Except CsdlParseError NavigationProperty := do
  pure {
    name := (← e.attrStr "Name").getD ""
    typeName := (← e.attrStr "Type").getD ""
    nullable := (← e.attrStr "Nullable").all (· ≠ "false")
    containsTarget := (← e.attrStr "ContainsTarget").any (· = "true")
    referentialConstraints := [] }

def parseReferentialConstraint (e : Element) : Except CsdlParseError ReferentialConstraint := do
  pure {
    property := (← e.attrStr "Property").getD ""
    referencedProperty := (← e.attrStr "ReferencedProperty").getD "" }

def parseNavigationBinding (e : Element) : Except CsdlParseError NavigationBinding := do
  pure {
    path := (← e.attrStr "Path").getD ""
    target := (← e.attrStr "Target").getD "" }

def parseEnumMember (e : Element) : Except CsdlParseError EnumMember := do
  pure {
    name := (← e.attrStr "Name").getD ""
    value := (← e.attrStr "Value").bind parseI64 }

/-- An operation by its start tag. -/
def parseEmptyOperation (e : Element) : Except CsdlParseError Operation := do
  pure {
    name := ← e.requiredAttr "Name"
    isBound := (← e.attrStr "IsBound").any (· = "true") }

def parseFloat (s : String) : F64 := (floats.parse s).getD 0

/-- The value of an annotation that is written as an attribute, of the kinds that are looked for
on every annotation. -/
def parseInlineAnnotationOverride (e : Element) :
    Except CsdlParseError (Option AnnotationValue) := do
  match ← e.attrStr "String" with
  | some value => pure (some (.string value))
  | none =>
    match ← e.attrStr "NavigationPropertyPath" with
    | some path => pure (some (.navigationPropertyPath path))
    | none =>
      match ← e.attrStr "Float" with
      | some value => pure (some (.float (parseFloat floats value)))
      | none => pure none

/-- The value of an annotation without children. -/
def parseInlineAnnotationValue (e : Element) : Except CsdlParseError AnnotationValue := do
  match ← parseInlineAnnotationOverride floats e with
  | some value => pure value
  | none =>
    match ← e.attrStr "Bool" with
    | some value => pure (.bool (value = "true"))
    | none =>
      match ← e.attrStr "Int" with
      | some value => pure (.int ((parseI64 value).getD 0))
      | none => pure (.string "")

def annotationFromAttrs (e : Element) : Except CsdlParseError (Option Annotation) := do
  match ← e.attrStr "Term" with
  | none => pure none
  | some term => pure (some ⟨term, ← parseInlineAnnotationValue floats e⟩)

/-! ### Loops -/

/-- A loop over the children of an element, with what it has read so far. -/
inductive Loop
  | schema (s : Schema)
  | entityType (t : EntityType) (actions : List Action) (functions : List Function)
  | key (keys : List String)
  | enumType (start : Element) (members : List EnumMember)
  | operation (kind : String) (o : Operation)
  | entityContainer (c : EntityContainer)
  | navigationProperty (n : NavigationProperty)
  | entitySet (s : EntitySet)
  | annotationChildren (term : String) (items : List String) (sawCollection : Bool)
  | text (name : String) (depth : Nat) (raw : String)
  | skip (depth : Nat)
  deriving DecidableEq

/-- What a loop returns to the one around it. -/
inductive Read
  | schema (s : Schema)
  | entityType (t : EntityType) (actions : List Action) (functions : List Function)
  | keys (keys : List String)
  | enumType (t : EnumType)
  | operation (kind : String) (o : Operation)
  | entityContainer (c : EntityContainer)
  | navigationProperty (n : NavigationProperty)
  | entitySet (s : EntitySet)
  | annotated (a : Annotation)
  | text (raw : String)
  | nothing
  deriving DecidableEq

/-- What a loop does at a tag. -/
inductive Move
  | stay (loop : Loop)
  | enter (loop inner : Loop)
  | leave (read : Read)
  deriving DecidableEq

/-- Operations go to the actions or the functions by the name of their element. -/
def addOperation (kind : String) (o : Operation) (actions : List Action)
    (functions : List Function) : List Action × List Function :=
  if kind = "Action" then (actions ++ [o], functions) else (actions, functions ++ [o])

def enterAnnotationChildren (e : Element) : Except CsdlParseError (Sum Annotation Loop) := do
  let term := (← e.attrStr "Term").getD ""
  match ← parseInlineAnnotationOverride floats e with
  | some value => pure (.inl ⟨term, value⟩)
  | none => pure (.inr (.annotationChildren term [] false))

/-- The loop that a start tag within a schema runs. -/
def enterSchemaChild (s : Schema) (e : Element) : Except CsdlParseError Move := do
  let kind := localName e.name
  if kind = "EntityType" then
    let name ← e.requiredAttr "Name"
    let hasStream := (← e.attrStr "HasStream").any (· = "true")
    pure (.enter (.schema s) (.entityType { name := name, hasStream := hasStream } [] []))
  else if kind = "EnumType" then pure (.enter (.schema s) (.enumType e []))
  else if kind = "Action" ∨ kind = "Function" then
    pure (.enter (.schema s) (.operation kind (← parseEmptyOperation e)))
  else if kind = "EntityContainer" then
    pure (.enter (.schema s) (.entityContainer { name := ← e.requiredAttr "Name" }))
  else pure (.enter (.schema s) (.skip 1))

/-- A tag without children within a schema. Operations and containers are not among those read. -/
def readSchemaLeaf (s : Schema) (e : Element) : Except CsdlParseError Schema := do
  let kind := localName e.name
  if kind = "Term" then pure { s with terms := s.terms ++ [← parseTerm e] }
  else if kind = "EnumType" ∧ frozen = false then
    pure { s with enumTypes := s.enumTypes ++ [{ name := ← e.requiredAttr "Name" }] }
  else pure s

def pushPropertyRef (e : Element) (keys : List String) : Except CsdlParseError (List String) := do
  pure (keys ++ (← e.attrStr "Name").toList)

/-- The loop that a start tag within an entity type runs. -/
def enterEntityTypeChild (t : EntityType) (actions : List Action) (functions : List Function)
    (e : Element) : Except CsdlParseError Move := do
  let kind := localName e.name
  if kind = "NavigationProperty" then
    pure (.enter (.entityType t actions functions) (.navigationProperty (← navPropFromAttrs e)))
  else if kind = "Annotation" then
    match ← enterAnnotationChildren floats e with
    | .inl a => pure (.enter (.entityType { t with annotations := t.annotations ++ [a] } actions
        functions) (.skip 1))
    | .inr loop => pure (.enter (.entityType t actions functions) loop)
  else if kind = "Key" then pure (.enter (.entityType t actions functions) (.key []))
  else if kind = "Action" ∨ kind = "Function" then
    pure (.enter (.entityType t actions functions) (.operation kind (← parseEmptyOperation e)))
  else pure (.enter (.entityType t actions functions) (.skip 1))

/-- A tag without children within an entity type. -/
def readEntityTypeLeaf (t : EntityType) (actions : List Action) (functions : List Function)
    (e : Element) : Except CsdlParseError Loop := do
  let kind := localName e.name
  if kind = "PropertyRef" then
    pure (.entityType { t with keyProperties := ← pushPropertyRef e t.keyProperties } actions
      functions)
  else if kind = "Property" then
    pure (.entityType { t with properties := t.properties ++ [← parseProperty e] } actions
      functions)
  else if kind = "NavigationProperty" then
    pure (.entityType { t with
      navigationProperties := t.navigationProperties ++ [← navPropFromAttrs e] } actions functions)
  else if kind = "Annotation" then
    pure (.entityType { t with
      annotations := t.annotations ++ (← annotationFromAttrs floats e).toList } actions functions)
  else if kind = "Action" ∨ kind = "Function" then
    let (actions, functions) := addOperation kind (← parseEmptyOperation e) actions functions
    pure (.entityType t actions functions)
  else pure (.entityType t actions functions)

def enterOperationChild (kind : String) (o : Operation) (e : Element) :
    Except CsdlParseError Move := do
  if localName e.name = "Annotation" then
    match ← enterAnnotationChildren floats e with
    | .inl a => pure (.enter (.operation kind { o with annotations := o.annotations ++ [a] })
        (.skip 1))
    | .inr loop => pure (.enter (.operation kind o) loop)
  else pure (.enter (.operation kind o) (.skip 1))

def readOperationLeaf (o : Operation) (e : Element) : Except CsdlParseError Operation := do
  let kind := localName e.name
  if kind = "Parameter" then pure { o with parameters := o.parameters ++ [← parseParameter e] }
  else if kind = "ReturnType" then pure { o with returnType := some (← parseReturnType e) }
  else if kind = "Annotation" then
    pure { o with annotations := o.annotations ++ (← annotationFromAttrs floats e).toList }
  else pure o

def enterContainerChild (c : EntityContainer) (e : Element) : Except CsdlParseError Move := do
  if localName e.name = "EntitySet" then
    pure (.enter (.entityContainer c) (.entitySet (← parseEntitySetEmpty e)))
  else pure (.enter (.entityContainer c) (.skip 1))

def readContainerLeaf (c : EntityContainer) (e : Element) :
    Except CsdlParseError EntityContainer := do
  let kind := localName e.name
  if kind = "EntitySet" then pure { c with entitySets := c.entitySets ++ [← parseEntitySetEmpty e] }
  else if kind = "ActionImport" then
    pure { c with actionImports := c.actionImports ++ [← parseActionImport e] }
  else if kind = "FunctionImport" then
    pure { c with functionImports := c.functionImports ++ [← parseFunctionImport e] }
  else pure c

/-- What a loop has read when it ends, at its end tag or at the end of the text. -/
def Loop.read : Loop → Except CsdlParseError Read
  | .schema s => .ok (.schema s)
  | .entityType t actions functions => .ok (.entityType t actions functions)
  | .key keys => .ok (.keys keys)
  | .enumType start members => do pure (.enumType ⟨← start.requiredAttr "Name", members⟩)
  | .operation kind o => .ok (.operation kind o)
  | .entityContainer c => .ok (.entityContainer c)
  | .navigationProperty n => .ok (.navigationProperty n)
  | .entitySet s => .ok (.entitySet s)
  | .annotationChildren term items sawCollection =>
    .ok (.annotated ⟨term, if sawCollection then .collection items else .string ""⟩)
  | .text _ _ _ => .error (.xml "missing end tag")
  | .skip _ => .ok .nothing

/-- The element whose end tag a loop waits for. -/
def Loop.endName : Loop → String
  | .schema _ => "Schema"
  | .entityType _ _ _ => "EntityType"
  | .key _ => "Key"
  | .enumType _ _ => "EnumType"
  | .operation kind _ => kind
  | .entityContainer _ => "EntityContainer"
  | .navigationProperty _ => "NavigationProperty"
  | .entitySet _ => "EntitySet"
  | .annotationChildren _ _ _ => "Annotation"
  | .text _ _ _ | .skip _ => ""

def Loop.onStart (l : Loop) (e : Element) : Except CsdlParseError Move :=
  match l with
  | .schema s => enterSchemaChild s e
  | .entityType t actions functions => enterEntityTypeChild floats t actions functions e
  | .operation kind o => enterOperationChild floats kind o e
  | .entityContainer c => enterContainerChild c e
  | .annotationChildren term items sawCollection =>
    if localName e.name = "Collection" then .ok (.stay (.annotationChildren term items true))
    else if localName e.name = "String" then
      .ok (.enter (.annotationChildren term items sawCollection) (.text e.name 0 ""))
    else .ok (.stay l)
  | .skip depth => .ok (.stay (.skip (depth + 1)))
  | _ => .ok (.stay l)

def Loop.onEmpty (l : Loop) (e : Element) : Except CsdlParseError Loop :=
  match l with
  | .schema s => do pure (.schema (← readSchemaLeaf frozen s e))
  | .entityType t actions functions => readEntityTypeLeaf floats t actions functions e
  | .key keys =>
    if localName e.name = "PropertyRef" then do pure (.key (← pushPropertyRef e keys)) else .ok l
  | .enumType start members =>
    if localName e.name = "Member" then do
      pure (.enumType start (members ++ [← parseEnumMember e]))
    else .ok l
  | .operation kind o => do pure (.operation kind (← readOperationLeaf floats o e))
  | .entityContainer c => do pure (.entityContainer (← readContainerLeaf c e))
  | .navigationProperty n =>
    if localName e.name = "ReferentialConstraint" then do
      pure (.navigationProperty { n with
        referentialConstraints := n.referentialConstraints ++ [← parseReferentialConstraint e] })
    else .ok l
  | .entitySet s =>
    if localName e.name = "NavigationPropertyBinding" then do
      pure (.entitySet { s with
        navigationBindings := s.navigationBindings ++ [← parseNavigationBinding e] })
    else .ok l
  | _ => .ok l

def Loop.onEnd (l : Loop) (name : String) : Except CsdlParseError Move :=
  match l with
  | .skip depth => if depth = 1 then .ok (.leave .nothing) else .ok (.stay (.skip (depth - 1)))
  | _ => if localName name = l.endName then do pure (.leave (← l.read)) else .ok (.stay l)

/-- Character data is taken as it stands, up to the end tag of its element. -/
def onText (name : String) (depth : Nat) (raw : String) (t : Token) :
    Except CsdlParseError Move :=
  match t.event with
  | .start e =>
    let depth := if e.name = name then depth + 1 else depth
    .ok (.stay (.text name depth (raw ++ t.before ++ t.raw)))
  | .empty _ => .ok (.stay (.text name depth (raw ++ t.before ++ t.raw)))
  | .end last =>
    if last = name then
      if depth = 0 then .ok (.leave (.text (raw ++ t.before)))
      else .ok (.stay (.text name (depth - 1) (raw ++ t.before ++ t.raw)))
    else .ok (.stay (.text name depth (raw ++ t.before ++ t.raw)))
  | .error message => .error (.xml message)

def Loop.onToken (l : Loop) (t : Token) : Except CsdlParseError Move :=
  match l with
  | .text name depth raw => onText name depth raw t
  | _ =>
    match t.event with
    | .start e => l.onStart floats e
    | .empty e => do pure (.stay (← l.onEmpty floats frozen e))
    | .end name => l.onEnd name
    | .error message => .error (.xml message)

variable (unescape : String → Except String String)

/-- What a loop does with what an inner loop has read. -/
def Loop.accept (l : Loop) (r : Read) : Except CsdlParseError Loop :=
  match l, r with
  | .schema s, .entityType t actions functions =>
    .ok (.schema { s with
      entityTypes := s.entityTypes ++ [t]
      actions := s.actions ++ actions
      functions := s.functions ++ functions })
  | .schema s, .enumType t => .ok (.schema { s with enumTypes := s.enumTypes ++ [t] })
  | .schema s, .operation kind o =>
    let (actions, functions) := addOperation kind o s.actions s.functions
    .ok (.schema { s with actions := actions, functions := functions })
  | .schema s, .entityContainer c =>
    .ok (.schema { s with entityContainers := s.entityContainers ++ [c] })
  | .entityType t actions functions, .navigationProperty n =>
    .ok (.entityType { t with navigationProperties := t.navigationProperties ++ [n] } actions
      functions)
  | .entityType t actions functions, .annotated a =>
    .ok (.entityType { t with annotations := t.annotations ++ [a] } actions functions)
  | .entityType t actions functions, .keys keys =>
    .ok (.entityType { t with keyProperties := t.keyProperties ++ keys } actions functions)
  | .entityType t actions functions, .operation kind o =>
    let (actions, functions) := addOperation kind o actions functions
    .ok (.entityType t actions functions)
  | .operation kind o, .annotated a =>
    .ok (.operation kind { o with annotations := o.annotations ++ [a] })
  | .entityContainer c, .entitySet s =>
    .ok (.entityContainer { c with entitySets := c.entitySets ++ [s] })
  | .annotationChildren term items sawCollection, .text raw =>
    match unescape raw with
    | .error message => .error (.xml message)
    | .ok value =>
      .ok (.annotationChildren term (if value = "" then items else items ++ [value]) sawCollection)
  | l, _ => .ok l

/-! ### Documents -/

/-- The loops that are running, the innermost first, within the loop over the whole document. -/
structure ParserState where
  document : CsdlDocument := {}
  loops : List Loop := []
  deriving DecidableEq

/-- What an inner loop returned, given to the loop around it. -/
def ParserState.give (st : ParserState) (r : Read) : Except CsdlParseError ParserState :=
  match st.loops with
  | [] =>
    match r with
    | .schema s =>
      .ok { st with
        document := { st.document with schemas := st.document.schemas ++ [s] } }
    | _ => .ok st
  | l :: outer => do
    let l ← l.accept unescape r
    pure { st with loops := l :: outer }

/-- A tag outside of every schema. -/
def documentOnToken (d : CsdlDocument) (t : Token) : Except CsdlParseError ParserState :=
  match t.event with
  | .start e =>
    if localName e.name = "Edmx" then do
      pure { document := { d with version := (← e.attrStr "Version").getD "" } }
    else if localName e.name = "Schema" then do
      pure { document := d, loops := [.schema { nameSpace := ← e.requiredAttr "Namespace" }] }
    else .ok { document := d }
  | .empty e =>
    if localName e.name = "Edmx" then do
      pure { document := { d with version := (← e.attrStr "Version").getD "" } }
    else .ok { document := d }
  | .end _ => .ok { document := d }
  | .error message => .error (.xml message)

def ParserState.step (st : ParserState) (t : Token) : Except CsdlParseError ParserState :=
  match st.loops with
  | [] => documentOnToken st.document t
  | l :: outer => do
    match ← l.onToken floats frozen t with
    | .stay l => pure { st with loops := l :: outer }
    | .enter l inner => pure { st with loops := inner :: l :: outer }
    | .leave r => ParserState.give unescape { st with loops := outer } r

def ParserState.run (st : ParserState) (tokens : List Token) : Except CsdlParseError ParserState :=
  tokens.foldlM (ParserState.step floats frozen unescape) st

/-- At the end of the text the loops end one after the other, each returning to the next. -/
def finishOuter : Read → List Loop → CsdlDocument → Except CsdlParseError CsdlDocument
  | .schema s, [], d => .ok { d with schemas := d.schemas ++ [s] }
  | _, [], d => .ok d
  | r, l :: outer, d => do
    let l ← l.accept unescape r
    finishOuter (← l.read) outer d

def ParserState.finish (st : ParserState) : Except CsdlParseError CsdlDocument :=
  match st.loops with
  | [] => .ok st.document
  | l :: outer => do finishOuter unescape (← l.read) outer st.document

def parseTokens (tokens : List Token) : Except CsdlParseError CsdlDocument := do
  let st ← ParserState.run floats frozen unescape {} tokens
  st.finish unescape

/-- The document of a text, in the form that is current or in the one that is frozen. -/
def parseCsdlWithCompatibility (x : XmlReader) (text : String) :
    Except CsdlParseError CsdlDocument :=
  parseTokens floats frozen x.unescape (x.tokens text)

def parseCsdl (x : XmlReader) (text : String) : Except CsdlParseError CsdlDocument :=
  parseCsdlWithCompatibility floats false x text

end Temper.Spec.Csdl
