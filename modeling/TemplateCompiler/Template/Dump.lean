import TemplateCompiler.Template.Node

/-!
# Tree dumps

A dump shows a tree with one line per node, indented by two blanks for each
level.  It leaves out numbers and positions, so that it compares trees by their
structure.
-/

namespace TemplateCompiler

namespace Declaration

/-- A declaration as the dump shows it. -/
def dumpText (declaration : Declaration) : String :=
  " <!" ++ declaration.name ++ String.join (declaration.parameters.map (" " ++ ·)) ++ ">"

end Declaration

namespace Element

/-- A name with a quoted value, if there is a value. -/
def assignment (name : String) (value : Option String) : String :=
  match value with
  | some value => s!" {name}={Text.quoted value}"
  | none => s!" {name}"

/-- An element as the dump shows it. -/
def dumpText (element : Element) : String :=
  " " ++ element.name
    ++ String.join (element.attributes.map fun item =>
        assignment item.name item.value)
    ++ String.join (element.bindings.map fun binding =>
        assignment (binding.direction.bracket binding.name) (some binding.expression))
    ++ String.join (element.directives.map fun directive =>
        assignment ("*" ++ directive.name) directive.expression)
    ++ (if element.selfClosing then " /" else "")

end Element

namespace NodeKind

/-- What the dump shows after the name of a kind. -/
def dumpDetail : NodeKind → String
  | .document head => String.join (head.declarations.map Declaration.dumpText)
  | .element tag => tag.dumpText
  | .text content | .comment content | .script content => " " ++ Text.quoted content
  | .block => ""
  | .loop header =>
      s!" {header.item} {header.preposition} {header.collection.text} index={header.index}"
  | .interpolation expression => " " ++ expression.text

def dumpLine (kind : NodeKind) : String :=
  kind.name ++ kind.dumpDetail

end NodeKind

namespace Node

mutual

/-- The lines of a node and the nodes below it, each with its depth. -/
def dumpLines (depth : Nat) : Node → List (Nat × String)
  | .node _ kind _ children => (depth, kind.dumpLine) :: childDumpLines (depth + 1) children

def childDumpLines (depth : Nat) : List Node → List (Nat × String)
  | [] => []
  | first :: others => dumpLines depth first ++ childDumpLines depth others

end

/-- The dump of a tree. -/
def dump (tree : Node) : String :=
  String.join ((dumpLines 0 tree).map fun (depth, line) =>
    String.ofList (List.replicate (2 * depth) ' ') ++ line ++ "\n")

end Node

end TemplateCompiler
