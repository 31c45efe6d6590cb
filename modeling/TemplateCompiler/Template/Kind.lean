import TemplateCompiler.Source.Position
import TemplateCompiler.Template.Expr
import TemplateCompiler.Text.Search

/-!
# Kinds of template nodes

What a node of a template is, apart from its place in the tree.
-/

namespace TemplateCompiler

/-- A declaration at the top of a template, as in `<!DOCTYPE html>`. -/
structure Declaration where
  name : String
  parameters : List String
  position : Position
deriving DecidableEq, Repr

/-- The document type a declaration declares, if that is what it does. -/
def Declaration.doctype? (declaration : Declaration) : Option String :=
  if Text.equalIgnoreCase declaration.name.toList "doctype".toList then
    some (" ".intercalate declaration.parameters)
  else none

/-- What belongs to a template as a whole. -/
structure Document where
  /-- The text of the front matter; empty when there is none. -/
  frontMatter : String
  declarations : List Declaration
deriving DecidableEq, Repr

/-- The document type declared first. -/
def Document.doctype? (document : Document) : Option String :=
  document.declarations.findSome? Declaration.doctype?

/-- An attribute of an element, with or without a value. -/
structure Attribute where
  name : String
  value : Option String
deriving DecidableEq, Repr

/-- Which way a property binding carries a value. -/
inductive BindingDirection where
  /-- Written `[name]`. -/
  | inward
  /-- Written `(name)`. -/
  | outward
  /-- Written `[(name)]`. -/
  | both
deriving DecidableEq, Repr

namespace BindingDirection

def text : BindingDirection → String
  | .inward => "in"
  | .outward => "out"
  | .both => "in-out"

/-- A property name between the brackets of a direction. -/
def bracket (direction : BindingDirection) (name : String) : String :=
  match direction with
  | .inward => s!"[{name}]"
  | .outward => s!"({name})"
  | .both => s!"[({name})]"

end BindingDirection

/-- A property binding of an element. -/
structure Binding where
  name : String
  expression : String
  direction : BindingDirection
deriving DecidableEq, Repr

/-- A directive of an element, as in `*name` or `*name="expression"`. -/
structure Directive where
  name : String
  expression : Option String
deriving DecidableEq, Repr

/-- An element without its content. -/
structure Element where
  name : String
  attributes : List Attribute
  bindings : List Binding
  directives : List Directive
  selfClosing : Bool
deriving DecidableEq, Repr

namespace Element

/-- An element of which only the name is known. -/
def named (name : String) : Element :=
  ⟨name, [], [], [], false⟩

/-- The first attribute of a name. -/
def attribute? (element : Element) (name : String) : Option Attribute :=
  element.attributes.find? (·.name == name)

/-- Whether the name of an element is a given one, in any ASCII case. -/
def isNamed (element : Element) (name : String) : Bool :=
  Text.equalIgnoreCase element.name.toList name.toList

end Element

/-- The header of a loop, as in `@for (alias of collection)`. -/
structure Loop where
  /-- The variable bound to each item. -/
  item : String
  /-- The word between the variable and the collection. -/
  preposition : String
  collection : Path
  /-- The variable bound to the position of each item. -/
  index : String
deriving DecidableEq, Repr

/-- The variable that holds the position within a loop. -/
def Loop.indexName : String := "$index"

/-- What a node is. -/
inductive NodeKind where
  | document (head : Document)
  | element (tag : Element)
  | text (content : String)
  | comment (content : String)
  | block
  | loop (header : Loop)
  | script (code : String)
  | interpolation (expression : Expr)
deriving DecidableEq

namespace NodeKind

def name : NodeKind → String
  | .document _ => "document"
  | .element _ => "element"
  | .text _ => "text"
  | .comment _ => "comment"
  | .block => "block"
  | .loop _ => "foreach-statement"
  | .script _ => "html-script"
  | .interpolation _ => "interpolation"

def isBlock : NodeKind → Bool
  | .block => true
  | _ => false

/-- Whether a node is a style element, the content of which is never laid
out. -/
def isStyle : NodeKind → Bool
  | .element tag => tag.isNamed "style"
  | _ => false

end NodeKind

end TemplateCompiler
