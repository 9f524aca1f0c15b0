import Mathlib

/-!
# XML as the parser reads it and the emitter writes it

The XML reader is a library. It is taken to turn a text into tags, each with the characters before
it; the values of attributes come decoded. What is written is a list of tags with the characters
before them, too, so that a reader is right about a written text when it returns its tags.
-/

namespace Temper.Spec.Csdl

/-! ### Reading -/

/-- The start of an element. An attribute that is malformed ends the search for those behind it. -/
structure Element where
  name : String
  attributes : List (Except String (String × Except String String))
  deriving DecidableEq

inductive Event
  | start (element : Element)
  | empty (element : Element)
  | «end» (name : String)
  | error (message : String)
  deriving DecidableEq

/-- A tag as the reader returns it, as it stands in the text, and the characters before it. -/
structure Token where
  before : String
  event : Event
  raw : String
  deriving DecidableEq

structure XmlReader where
  /-- The tags of a text, up to the first error. -/
  tokens : String → List Token
  /-- The text that character data with references stands for. -/
  unescape : String → Except String String

inductive CsdlParseError
  | xml (message : String)
  | attribute (message : String)
  | invalidAttributeValue (element attr source : String)
  | missingAttribute (element attr : String)
  deriving DecidableEq, Repr

/-- A name without its namespace. -/
def localName (name : String) : String :=
  String.ofList (name.toList.reverse.takeWhile (· ≠ ':')).reverse

def findAttr (element name : String) :
    List (Except String (String × Except String String)) → Except CsdlParseError (Option String)
  | [] => .ok none
  | .error message :: _ => .error (.attribute message)
  | .ok (key, value) :: rest =>
    if key = name then
      match value with
      | .ok value => .ok (some value)
      | .error source => .error (.invalidAttributeValue (localName element) name source)
    else findAttr element name rest

def Element.attrStr (e : Element) (name : String) : Except CsdlParseError (Option String) :=
  findAttr e.name name e.attributes

def Element.requiredAttr (e : Element) (name : String) : Except CsdlParseError String := do
  match ← e.attrStr name with
  | some value => .ok value
  | none => .error (.missingAttribute (localName e.name) name)

/-! ### Writing -/

/-- A character within the value of an attribute. -/
def escapeChar : Char → String
  | '&' => "&amp;"
  | '<' => "&lt;"
  | '>' => "&gt;"
  | '"' => "&quot;"
  | '\'' => "&apos;"
  | '\t' => "&#x9;"
  | '\n' => "&#xA;"
  | '\r' => "&#xD;"
  | ch => ch.toString

def xmlEscape (s : String) : String := String.join (s.toList.map escapeChar)

/-- A character within the content of an element. -/
def escapeTextChar : Char → String
  | '&' => "&amp;"
  | '<' => "&lt;"
  | '>' => "&gt;"
  | ch => ch.toString

def xmlEscapeText (s : String) : String := String.join (s.toList.map escapeTextChar)

/-- A tag that is written. -/
inductive Markup
  | start (name : String) (attributes : List (String × String))
  | empty (name : String) (attributes : List (String × String))
  | «end» (name : String)
  deriving DecidableEq

def renderAttributes (attributes : List (String × String)) : String :=
  String.join (attributes.map fun (key, value) => " " ++ key ++ "=\"" ++ xmlEscape value ++ "\"")

def Markup.render : Markup → String
  | .start name attributes => "<" ++ name ++ renderAttributes attributes ++ ">"
  | .empty name attributes => "<" ++ name ++ renderAttributes attributes ++ "/>"
  | .end name => "</" ++ name ++ ">"

/-- A tag with the characters written before it. -/
structure Piece where
  before : String
  markup : Markup
  deriving DecidableEq

def Piece.render (p : Piece) : String := p.before ++ p.markup.render

def render (pieces : List Piece) : String := String.join (pieces.map Piece.render)

/-- A tag on a line of its own. -/
def line (indent : Nat) (markup : Markup) : Piece :=
  ⟨"\n" ++ String.ofList (List.replicate indent ' '), markup⟩

/-- An element whose tags stand on lines of their own. -/
def block (indent : Nat) (name : String) (attributes : List (String × String))
    (children : List Piece) : List Piece :=
  line indent (.start name attributes) :: children ++ [line indent (.end name)]

def leaf (indent : Nat) (name : String) (attributes : List (String × String)) : List Piece :=
  [line indent (.empty name attributes)]

def xmlDeclaration : String := "<?xml version=\"1.0\" encoding=\"utf-8\"?>"

/-- A text with its declaration and a last line break. -/
def document (pieces : List Piece) : String := xmlDeclaration ++ render pieces ++ "\n"

/-! ### A reader that is right about a text -/

def readAttributes (attributes : List (String × String)) :
    List (Except String (String × Except String String)) :=
  attributes.map fun (key, value) => .ok (key, .ok value)

def Markup.event : Markup → Event
  | .start name attributes => .start ⟨name, readAttributes attributes⟩
  | .empty name attributes => .empty ⟨name, readAttributes attributes⟩
  | .end name => .end name

/-- The token that a written tag is read as. -/
def Piece.token (p : Piece) : Token := ⟨p.before, p.markup.event, p.markup.render⟩

/-- Every start tag has its end tag. -/
inductive Balanced : List Markup → Prop
  | nil : Balanced []
  | empty {name : String} {attributes : List (String × String)} {rest : List Markup}
      (h : Balanced rest) : Balanced (.empty name attributes :: rest)
  | element {name : String} {attributes : List (String × String)} {inner rest : List Markup}
      (hinner : Balanced inner) (hrest : Balanced rest) :
      Balanced (.start name attributes :: inner ++ .end name :: rest)

def isNameChar (c : Char) : Bool := c.isAlpha || c = ':'

def IsName (s : String) : Prop := s ≠ "" ∧ s.toList.all isNameChar = true

instance : DecidablePred IsName := fun _ => inferInstanceAs (Decidable (_ ∧ _))

def Markup.attributes : Markup → List (String × String)
  | .start _ attributes | .empty _ attributes => attributes
  | .end _ => []

def Markup.name : Markup → String
  | .start name _ | .empty name _ | .end name => name

/-- Nothing that is written can be taken for markup. -/
structure Piece.Safe (p : Piece) : Prop where
  before : '<' ∉ p.before.toList
  name : IsName p.markup.name
  keys : ∀ a ∈ p.markup.attributes, IsName a.1
  distinct : (p.markup.attributes.map (·.1)).Nodup
  values : ∀ a ∈ p.markup.attributes,
    '<' ∉ (xmlEscape a.2).toList ∧ '"' ∉ (xmlEscape a.2).toList

structure WellFormed (pieces : List Piece) : Prop where
  balanced : Balanced (pieces.map (·.markup))
  safe : ∀ p ∈ pieces, p.Safe

/-- A reader that is right about a written text and about character data in it, provided that the
text is well-formed. -/
structure XmlReader.Reads (x : XmlReader) (pieces : List Piece) : Prop where
  tokens : WellFormed pieces → x.tokens (document pieces) = pieces.map Piece.token
  unescape : ∀ p ∈ pieces, ∀ s, p.before = xmlEscapeText s → x.unescape p.before = .ok s

end Temper.Spec.Csdl
