/-!
# Character classes of the template language

Names in markup, in expressions and in style sheets admit different
characters.  All of these classes are ASCII: any other character is plain text
in markup and an error elsewhere.
-/

namespace TemplateCompiler

namespace CharClass

/-- First character of a tag or attribute name. -/
def isNameStart (c : Char) : Bool :=
  c.isAlpha || c == '_'

/-- Later character of a tag or attribute name, as in `data-id`, `xml:lang` and
`on.click`. -/
def isNamePart (c : Char) : Bool :=
  c.isAlphanum || c == '_' || c == '-' || c == ':' || c == '.'

/-- First character of a variable name; the dollar sign admits `$index`. -/
def isVariableStart (c : Char) : Bool :=
  c.isAlpha || c == '_' || c == '$'

/-- Later character of a variable name. -/
def isVariablePart (c : Char) : Bool :=
  c.isAlphanum || c == '_' || c == '$' || c == '-'

/-- First character of a name in a style sheet, as in `--accent`. -/
def isStyleNameStart (c : Char) : Bool :=
  c.isAlpha || c == '_' || c == '-'

/-- Later character of a name in a style sheet. -/
def isStyleNamePart (c : Char) : Bool :=
  c.isAlphanum || c == '_' || c == '-'

/-- The whitespace of markup: blank, tab, line feed, carriage return and form
feed. -/
def isMarkupSpace (c : Char) : Bool :=
  c == ' ' || c == '\t' || c == '\n' || c == '\r' || c == '\x0c'

/-- A character that ends a run of markup text. -/
def isTextBoundary (c : Char) : Bool :=
  c == '<' || c == '>' || c == '{' || c == '}' || c == '@' || c == '&' || isMarkupSpace c

/-- A character between the ampersand and the semicolon of an entity, as in
`&amp;` and `&#x27;`. -/
def isEntityPart (c : Char) : Bool :=
  c.isAlphanum || c == '#'

/-- A hexadecimal digit. -/
def isHexDigit (c : Char) : Bool :=
  c.isDigit || ('a' ≤ c && c ≤ 'f') || ('A' ≤ c && c ≤ 'F')

/-- The three characters that can quote a string. -/
def isQuote (c : Char) : Bool :=
  c == '"' || c == '\'' || c == '\x60'

end CharClass

end TemplateCompiler
