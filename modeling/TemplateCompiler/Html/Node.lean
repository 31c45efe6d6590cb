import TemplateCompiler.Json.Value
import TemplateCompiler.Template.Kind

/-!
# Output documents

What a template evaluates to: elements, texts and comments, free of loops,
interpolations and blocks.
-/

namespace TemplateCompiler

namespace Html

/-- A node of an output document. -/
inductive Node where
  | element (name : String) (attributes : List Attribute) (children : List Node)
  /-- A text; a raw one is never trimmed or indented. -/
  | text (content : String) (raw : Bool)
  | comment (content : String)
deriving Inhabited

/-- An output document. -/
structure Document where
  doctype : Option String
  children : List Node
deriving Inhabited

def attributeJson (item : Attribute) : Json :=
  .object
    [("name", .string item.name), ("value", (item.value.map Json.string).getD .null)]

namespace Node

mutual

def json : Node → Json
  | .element name attributes children =>
      .object
        [("kind", .string "element"), ("name", .string name),
          ("attributes", .array (attributes.map attributeJson)),
          ("children", .array (jsons children))]
  | .text content raw =>
      .object [("kind", .string "text"), ("text", .string content), ("raw", .bool raw)]
  | .comment content => .object [("kind", .string "comment"), ("text", .string content)]

def jsons : List Node → List Json
  | [] => []
  | first :: others => json first :: jsons others

end

end Node

def Document.json (document : Document) : Json :=
  .object
    [("doctype", (document.doctype.map Json.string).getD .null),
      ("children", .array (Node.jsons document.children))]

end Html

end TemplateCompiler
