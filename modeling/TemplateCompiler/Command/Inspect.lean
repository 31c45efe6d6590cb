import TemplateCompiler.Command.Failure
import TemplateCompiler.Compile
import TemplateCompiler.Template.Dump

/-!
# Looking into a template

The commands that show the tokens and the tree of one template.
-/

namespace TemplateCompiler

namespace Command

/-- The tokens of a source, one on a line. -/
def tokenListing (path : String) (tokens : List Token) : String :=
  s!"Tokens for '{path}' ({tokens.length} tokens):\n"
    ++ String.join
      (tokens.map fun token => s!"  {token.kind.debugText} @ {token.position.text}\n")

/-- The size, the front matter and the tree of a template. -/
def treeListing (path : String) (template : Template) : String :=
  let head := template.document
  let frontMatter :=
    if head.frontMatter.isEmpty then ""
    else s!"  Front matter: {head.frontMatter.utf8ByteSize} bytes\n"
  s!"Parse result for '{path}':\n  Nodes: {template.size}\n"
    ++ s!"  Declarations: {head.declarations.length}\n" ++ frontMatter ++ "\n"
    ++ template.root.dump

/-- Prints what is found in a source, or reports why it is faulty. -/
def inspect {α : Type} (colors : Bool) (path : String)
    (stage : Source → Except Diagnostic α) (listing : String → α → String) : Program :=
  .reading path fun text =>
    let source : Source := ⟨path, text⟩
    match stage source with
    | .ok found => .print (listing path found) (.finish 0)
    | .error diagnostic => .fail (reportText colors [(source, diagnostic)])

/-- Shows the tokens of a template. -/
def lex (colors : Bool) (path : String) : Program :=
  inspect colors path Source.lex tokenListing

/-- Shows the tree of a template. -/
def parse (colors : Bool) (path : String) : Program :=
  inspect colors path Source.parse treeListing

end Command

end TemplateCompiler
