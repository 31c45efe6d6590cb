import TemplateCompiler.Number.Layout
import TemplateCompiler.Source.Position
import TemplateCompiler.Text.Quoted

/-!
# Tokens

A token is a kind together with the place it was read from.  One enumeration of
kinds serves all modes of the lexer: `<` is the same kind in markup, inside a tag
and inside an expression.  A kind carries the text or value that was read, when
it has one.

Three texts describe a kind.  Its name appears in messages; its description
adds the payload where a message benefits from it; its debugging form shows the
constructor with its whole payload.
-/

namespace TemplateCompiler

/-- Marks of punctuation, one to three characters long. -/
inductive Punctuation where
  | less
  | greater
  | equals
  | bang
  | question
  | colon
  | semicolon
  | comma
  | dot
  | plus
  | minus
  | slash
  | star
  | percent
  | caret
  | pipe
  | tilde
  | ampersand
  | at
  | hash
  | dollar
  | leftBrace
  | rightBrace
  | leftParen
  | rightParen
  | leftBracket
  | rightBracket
  | equal
  | identical
  | notEqual
  | notIdentical
  | lessOrEqual
  | greaterOrEqual
deriving DecidableEq, Repr

namespace Punctuation

/-- The characters of a mark. -/
def spelling : Punctuation → String
  | .less => "<"
  | .greater => ">"
  | .equals => "="
  | .bang => "!"
  | .question => "?"
  | .colon => ":"
  | .semicolon => ";"
  | .comma => ","
  | .dot => "."
  | .plus => "+"
  | .minus => "-"
  | .slash => "/"
  | .star => "*"
  | .percent => "%"
  | .caret => "^"
  | .pipe => "|"
  | .tilde => "~"
  | .ampersand => "&"
  | .at => "@"
  | .hash => "#"
  | .dollar => "$"
  | .leftBrace => "\x7b"
  | .rightBrace => "\x7d"
  | .leftParen => "("
  | .rightParen => ")"
  | .leftBracket => "["
  | .rightBracket => "]"
  | .equal => "=="
  | .identical => "==="
  | .notEqual => "!="
  | .notIdentical => "!=="
  | .lessOrEqual => "<="
  | .greaterOrEqual => ">="

def label : Punctuation → String
  | .less => "TagOpen"
  | .greater => "TagClose"
  | .equals => "Equals"
  | .bang => "Bang"
  | .question => "Question"
  | .colon => "Colon"
  | .semicolon => "Semicolon"
  | .comma => "Comma"
  | .dot => "Dot"
  | .plus => "Plus"
  | .minus => "Minus"
  | .slash => "Slash"
  | .star => "Star"
  | .percent => "Percent"
  | .caret => "Caret"
  | .pipe => "Pipe"
  | .tilde => "Tilde"
  | .ampersand => "Ampersand"
  | .at => "At"
  | .hash => "Hash"
  | .dollar => "Dollar"
  | .leftBrace => "LeftBrace"
  | .rightBrace => "RightBrace"
  | .leftParen => "LeftParen"
  | .rightParen => "RightParen"
  | .leftBracket => "LeftBracket"
  | .rightBracket => "RightBracket"
  | .equal => "EqEq"
  | .identical => "EqEqEq"
  | .notEqual => "NotEq"
  | .notIdentical => "NotEqEq"
  | .lessOrEqual => "LtEq"
  | .greaterOrEqual => "GtEq"

/-- The mark that consists of one character. -/
def ofChar? : Char → Option Punctuation
  | '<' => some .less
  | '>' => some .greater
  | '=' => some .equals
  | '!' => some .bang
  | '?' => some .question
  | ':' => some .colon
  | ';' => some .semicolon
  | ',' => some .comma
  | '.' => some .dot
  | '+' => some .plus
  | '-' => some .minus
  | '/' => some .slash
  | '*' => some .star
  | '%' => some .percent
  | '^' => some .caret
  | '|' => some .pipe
  | '~' => some .tilde
  | '&' => some .ampersand
  | '@' => some .at
  | '#' => some .hash
  | '$' => some .dollar
  | '{' => some .leftBrace
  | '}' => some .rightBrace
  | '(' => some .leftParen
  | ')' => some .rightParen
  | '[' => some .leftBracket
  | ']' => some .rightBracket
  | _ => none

end Punctuation

/-- The kind of a token and what was read for it. -/
inductive TokenKind where
  /-- The block before the template, without its delimiter lines; empty when
  there is none. -/
  | frontMatter (text : String)
  | whitespace (text : String)
  | text (text : String)
  /-- An entity with its ampersand and semicolon. -/
  | entity (text : String)
  /-- What stands between the delimiters of a markup comment. -/
  | comment (text : String)
  | identifier (name : String)
  /-- A string without its quotes; escapes are resolved outside style sheets. -/
  | string (value : String)
  | number (value : Float)
  | boolean (value : Bool)
  /-- A template literal without its quotes. -/
  | templateLiteral (value : String)
  | scriptCode (text : String)
  | scriptEnd
  | styleEnd
  /-- What stands between the delimiters of a style comment. -/
  | styleComment (text : String)
  | styleName (name : String)
  | dimension (value : Float) (unit : String)
  /-- The digits of a color without the hash sign. -/
  | color (digits : String)
  | interpolationStart
  | interpolationEnd
  | punctuation (mark : Punctuation)
deriving DecidableEq

namespace TokenKind

def name : TokenKind → String
  | .frontMatter _ => "front matter"
  | .whitespace _ => "whitespace"
  | .text _ => "text"
  | .entity _ => "entity"
  | .comment _ => "comment"
  | .identifier _ => "identifier"
  | .string _ => "string"
  | .number _ => "number"
  | .boolean _ => "boolean"
  | .templateLiteral _ => "template literal"
  | .scriptCode _ => "script code"
  | .scriptEnd => "</script>"
  | .styleEnd => "</style>"
  | .styleComment _ => "css comment"
  | .styleName _ => "css identifier"
  | .dimension _ _ => "css dimension"
  | .color _ => "hex color"
  | .interpolationStart => "\x7b\x7b"
  | .interpolationEnd => "\x7d\x7d"
  | .punctuation mark => mark.spelling

/-- Whether a kind separates other tokens inside tags and expressions. -/
def isWhitespace : TokenKind → Bool
  | .whitespace _ => true
  | _ => false

/-- The word for a truth value. -/
def booleanText (value : Bool) : String :=
  if value then "true" else "false"

/-- What a message says was found: the name, with the payload where it helps. -/
def description : TokenKind → String
  | .identifier word => s!"identifier '{word}'"
  | .string value => s!"string {Text.quoted value}"
  | .number value => s!"number {NumberLayout.output.text value}"
  | .boolean value => s!"boolean {booleanText value}"
  | .text content => s!"text {Text.quoted content}"
  | other => s!"'{other.name}'"

/-- The constructor and its payload. -/
def debugText : TokenKind → String
  | .frontMatter content => s!"MatterContent({Text.quoted content})"
  | .whitespace content => s!"Whitespace({Text.quoted content})"
  | .text content => s!"Text({Text.quoted content})"
  | .entity content => s!"Entity({Text.quoted content})"
  | .comment content => s!"HtmlComment({Text.quoted content})"
  | .identifier word => s!"Identifier({Text.quoted word})"
  | .string value => s!"String({Text.quoted value})"
  | .number value => s!"Number({NumberLayout.debugging.text value})"
  | .boolean value => s!"Boolean({booleanText value})"
  | .templateLiteral value => s!"TemplateLiteral({Text.quoted value})"
  | .scriptCode content => s!"ScriptCode({Text.quoted content})"
  | .scriptEnd => "ScriptEnd"
  | .styleEnd => "StyleEnd"
  | .styleComment content => s!"CssComment({Text.quoted content})"
  | .styleName word => s!"CssIdentifier({Text.quoted word})"
  | .dimension value unit =>
      "CssDimension \x7b value: " ++ NumberLayout.debugging.text value ++ ", unit: "
        ++ Text.quoted unit ++ " \x7d"
  | .color digits => s!"CssHexColor({Text.quoted digits})"
  | .interpolationStart => "InterpolationStart"
  | .interpolationEnd => "InterpolationEnd"
  | .punctuation mark => mark.label

end TokenKind

/-- A kind of token at a place in the source. -/
structure Token where
  kind : TokenKind
  position : Position
deriving DecidableEq

namespace Token

def span (token : Token) : Span :=
  token.position.span

/-- The debugging form: the kind, then line, column and extent. -/
def debugText (token : Token) : String :=
  s!"{token.kind.debugText} @ {token.position.detailedText}"

end Token

end TemplateCompiler
