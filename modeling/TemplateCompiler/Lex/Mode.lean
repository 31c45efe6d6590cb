/-!
# Lexing modes

A template mixes several languages.  The mode says by whose rules the next
token is read.
-/

namespace TemplateCompiler

/-- The language that the next token belongs to. -/
inductive LexMode where
  /-- The block between `---` lines at the very start of a source. -/
  | frontMatter
  /-- Text and markup outside of tags. -/
  | markup
  /-- Inside a tag. -/
  | tag
  /-- The content of a style element. -/
  | style
  /-- The content of a script element. -/
  | script
  /-- Inside an interpolation or the header of a statement. -/
  | expression
deriving DecidableEq, Repr

namespace LexMode

def text : LexMode → String
  | .frontMatter => "front matter"
  | .markup => "markup text"
  | .tag => "tag"
  | .style => "style block"
  | .script => "script block"
  | .expression => "expression"

end LexMode

end TemplateCompiler
