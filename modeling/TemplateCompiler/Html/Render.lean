import TemplateCompiler.Html.Node
import TemplateCompiler.Html.Settings
import TemplateCompiler.Text.WhiteSpace

/-!
# Rendering

A document is rendered in two steps.  First it becomes a list of emissions, of
which some are text and the others layout; then the emissions are written out.
The modes differ in the layout, in whether texts are trimmed, and in the blank
before the slash of an element without content.

Inside elements such as `pre` and `script` nothing is laid out or trimmed in any
mode, and a raw text never is.
-/

namespace TemplateCompiler

namespace Html

/-- A part of the output: text, or layout. -/
inductive Emission where
  | text (content : String)
  | newline
  | indent (blanks : Nat)
deriving DecidableEq, Repr

/-- The characters of an emission. -/
def Emission.written : Emission → String
  | .text content => content
  | .newline => "\n"
  | .indent blanks => String.ofList (List.replicate blanks ' ')

/-- The output that emissions make up. -/
def write (emissions : List Emission) : String :=
  String.join (emissions.map Emission.written)

/-- The elements whose content is left as it is. -/
def rawTextElements : List String :=
  ["pre", "textarea", "script", "style", "xmp"]

/-- Whether the content of an element is left as it is, in any ASCII case of its
name. -/
def isRawTextElement (name : String) : Bool :=
  rawTextElements.any fun other => Text.equalIgnoreCase other.toList name.toList

/-- An attribute in a start tag.  An empty value is not written. -/
def attributeEmissions (item : Attribute) : List Emission :=
  let value :=
    match item.value with
    | some value =>
        if value.isEmpty then [] else [.text "=\"", .text value, .text "\""]
    | none => []
  [.text " ", .text item.name] ++ value

def tagEmissions (name : String) (attributes : List Attribute) : List Emission :=
  [.text "<", .text name] ++ attributes.flatMap attributeEmissions

def endTagEmissions (name : String) : List Emission :=
  [.text "</", .text name, .text ">"]

def commentEmissions (content : String) : List Emission :=
  [.text "<!--", .text content, .text "-->"]

namespace Node

mutual

/-- A node inside an element whose content is left as it is. -/
def verbatim : Node → List Emission
  | .text content _ => [.text content]
  | .comment content => commentEmissions content
  | .element name attributes children =>
      match children with
      | [] => tagEmissions name attributes ++ [.text "/>"]
      | first :: others =>
          tagEmissions name attributes ++ [.text ">"] ++ (verbatim first ++ verbatims others)
            ++ endTagEmissions name

def verbatims : List Node → List Emission
  | [] => []
  | first :: others => verbatim first ++ verbatims others

end

/-- A text that is not raw. -/
def layOutText (settings : Settings) (depth : Nat) (content : String) : List Emission :=
  match settings.mode with
  | .minify => [.text (Text.trim content)]
  | .pretty =>
      let trimmed := Text.trim content
      if trimmed.isEmpty then []
      else [.indent (depth * settings.indent), .text trimmed, .newline]
  | .preserve => [.indent (depth * settings.indent), .text content, .newline]

/-- Emissions on a line of their own in pretty mode. -/
def ownLine (settings : Settings) (depth : Nat) (emissions : List Emission) : List Emission :=
  if settings.mode = .pretty then
    .indent (depth * settings.indent) :: (emissions ++ [.newline])
  else emissions

/-- An element with content, given the emissions of its content.  In pretty mode
the content stands on lines between the tags. -/
def layOutElement (settings : Settings) (depth : Nat) (name : String)
    (attributes : List Attribute) (content : List Emission) : List Emission :=
  let inner :=
    if settings.mode = .pretty then
      .newline :: (content ++ [.indent (depth * settings.indent)])
    else content
  ownLine settings depth
    (tagEmissions name attributes ++ [.text ">"] ++ inner ++ endTagEmissions name)

mutual

/-- A node at a depth. -/
def layOut (settings : Settings) (depth : Nat) : Node → List Emission
  | .text content raw => if raw then [.text content] else layOutText settings depth content
  | .comment content => ownLine settings depth (commentEmissions content)
  | .element name attributes children =>
      match children with
      | [] =>
          let ending := if settings.mode = .minify then "/>" else " />"
          ownLine settings depth (tagEmissions name attributes ++ [.text ending])
      | first :: others =>
          if isRawTextElement name then
            ownLine settings depth
              (tagEmissions name attributes ++ [.text ">"] ++ verbatims (first :: others)
                ++ endTagEmissions name)
          else
            layOutElement settings depth name attributes
              (layOut settings (depth + 1) first ++ layOuts settings (depth + 1) others)

/-- Nodes at a depth. -/
def layOuts (settings : Settings) (depth : Nat) : List Node → List Emission
  | [] => []
  | first :: others => layOut settings depth first ++ layOuts settings depth others

end

/-- The output of a node by itself. -/
def render (settings : Settings) (node : Node) : String :=
  write (layOut settings 0 node)

end Node

namespace Document

/-- The type that is written for a document, if any. -/
def writtenDoctype? (settings : Settings) (document : Document) : Option String :=
  document.doctype.or (if settings.implicitDoctype then some "html" else none)

/-- The emissions of a document. -/
def layOut (settings : Settings) (document : Document) : List Emission :=
  let doctype :=
    match document.writtenDoctype? settings with
    | some doctype =>
        [.text "<!DOCTYPE ", .text doctype, .text ">"]
          ++ (if settings.mode = .minify then [] else [.newline])
    | none => []
  doctype ++ Node.layOuts settings 0 document.children

def render (settings : Settings) (document : Document) : String :=
  write (document.layOut settings)

end Document

end Html

end TemplateCompiler
