import TemplateCompiler.Parse.Embedded
import TemplateCompiler.Parse.Tag

/-!
# Templates

```text
template  = { text | comment | tag | interpolation | statement | block }
statement = "@" "for" "(" alias preposition path ")" "{"
block     = "{" ... "}"
```

A template is read token by token.  Tags, statements and braces open and close
constructs; everything else is a node by itself.  A loop opens two nodes, the
loop and its body, and the brace that ends the body closes both.
-/

namespace TemplateCompiler

namespace Parser

/-- Whether a token is part of a run of text.  A closing bracket outside of a
tag is text. -/
def isTextual : TokenKind → Bool
  | .whitespace _ | .text _ | .entity _ | .punctuation .greater => true
  | _ => false

def textRun (bound : Nat) : Parser Unit := do
  let start ← here
  skipWhile isTextual bound
  let stop ← here
  let position ← spanningFrom start.mark.position
  modify (·.addLeaf (.text (String.ofList (start.textTo stop))) position)

/-- Parses a start tag, and the content of a script or a style. -/
def element (bound : Nat) (start : Position) : Parser Unit := do
  let tag ← startTag bound
  popMode
  let position ← spanningFrom start
  if tag.selfClosing then modify (·.addLeaf (.element tag) position)
  else
    modify (·.openNode (.element tag) position)
    if tag.isNamed "script" then
      pushMode .script
      scriptContent bound
    else if tag.isNamed "style" then
      pushMode .style
      styleContent bound

/-- Parses an end tag, which closes the innermost construct. -/
def elementEnd (bound : Nat) (start : Position) : Parser Unit := do
  let name ← endTag bound
  popMode
  let position ← spanningFrom start
  match (← get).innermost? with
  | some (.element tag) =>
      if tag.name = name then modify (·.closeNode)
      else failAt (.mismatchedClose tag.name name) position
  | _ => failAt (.unexpectedClose name) position

/-- Parses a declaration, which must come before all nodes. -/
def declaration (bound : Nat) (start : Position) : Parser Unit := do
  if !(← get).atStart then failAt .misplacedDeclaration start
  skip
  let (name, _) ← expectIdentifier "declaration name"
  let parameters ← declarationParameters bound
  popMode
  let position ← spanningFrom start
  modify (·.declare ⟨name, parameters, position⟩)

def tag (bound : Nat) : Parser Unit := do
  let start ← nextPosition
  skip
  pushMode .tag
  match ← peekKind with
  | some (.punctuation .slash) => elementEnd bound start
  | some (.punctuation .bang) => declaration bound start
  | some (.identifier _) => element bound start
  | _ => failExpected "tag name"

/-- Parses the header of a loop after its keyword. -/
def loopHeader (bound : Nat) : Parser Loop := do
  skipWhitespace bound
  discard (expectMark "`(`" .leftParen)
  skipWhitespace bound
  let (item, _) ← expectIdentifier "loop variable"
  skipWhitespace bound
  let (preposition, _) ← expectIdentifier "`of` or `in`"
  skipWhitespace bound
  let collection ← path bound
  skipWhitespace bound
  discard (expectMark "`)`" .rightParen)
  skipWhitespace bound
  return ⟨item, preposition, collection, Loop.indexName⟩

/-- Parses a statement, which opens a loop and its body. -/
def statement (bound : Nat) : Parser Unit := do
  let start ← nextPosition
  skip
  pushMode .expression
  skipWhitespace bound
  let (keyword, keywordPosition) ← expectIdentifier "statement name after `@`"
  if keyword ≠ "for" then failAt (.unknownStatement keyword) keywordPosition
  let header ← loopHeader bound
  let brace ← expectMark "`\x7b`" .leftBrace
  popMode
  let position ← spanningFrom start
  modify (·.openNode (.loop header) position)
  modify (·.openNode .block brace.position)

/-- Parses the brace that opens a block. -/
def blockStart : Parser Unit := do
  let position ← nextPosition
  skip
  modify (·.openNode .block position)

/-- Parses the brace that closes a block, and the loop whose body it is. -/
def blockEnd : Parser Unit := do
  let position ← nextPosition
  skip
  match (← get).innermost? with
  | some .block =>
      modify (·.closeNode)
      match (← get).innermost? with
      | some (.loop _) => modify (·.closeNode)
      | _ => pure ()
  | _ => failAt .unexpectedBlockClose position

def comment (content : String) (position : Position) : Parser Unit := do
  skip
  modify (·.addLeaf (.comment content) position)

/-- Parses the construct that begins with a token, which is the next one. -/
def construct (bound : Nat) (token : Token) : Parser Unit :=
  match token.kind with
  | .whitespace _ | .text _ | .entity _ | .punctuation .greater => textRun bound
  | .comment content => comment content token.position
  | .punctuation .less => tag bound
  | .interpolationStart => interpolation bound
  | .punctuation .at => statement bound
  | .punctuation .leftBrace => blockStart
  | .punctuation .rightBrace => blockEnd
  | _ => failUnexpected .markup

/-- Parses the markup up to the end of the source. -/
def markup : (bound : Nat) → Parser Unit
  | 0 => pure ()
  | bound + 1 => do
      match ← peek with
      | none => pure ()
      | some token =>
          construct bound token
          markup bound

def frontMatter : Parser Unit := do
  pushMode .frontMatter
  let token ← lexing Lexer.next
  popMode
  match token with
  | some ⟨.frontMatter content, _⟩ =>
      modify fun state =>
        { state with document := { state.document with frontMatter := content } }
  | _ => pure ()

/-- How a construct that misses its end is named. -/
def describeOpen : NodeKind → String
  | .element tag => s!"element <{tag.name}>"
  | .loop header => s!"@for over `{header.collection.text}`"
  | other => other.name

/-- Fails if a construct is open. -/
def expectNothingOpen : Parser Unit := do
  match (← get).unclosed? with
  | some construct => failAt (.unclosed (describeOpen construct.kind)) construct.position
  | none => pure ()

def template (bound : Nat) : Parser Unit := do
  frontMatter
  markup bound
  expectNothingOpen

end Parser

/-- Parses a text.  A token of markup takes at least one character, which bounds
the number of tokens. -/
def Template.parse (text : String) : Except Parse.Error Template :=
  let characters := text.toList
  match Parser.template (characters.length + 1) (.ofText characters) with
  | .ok _ state => .ok state.template
  | .error error _ => .error error

end TemplateCompiler
