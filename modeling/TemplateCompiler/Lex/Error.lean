import TemplateCompiler.Diagnostic.Basic
import TemplateCompiler.Lex.Mode
import TemplateCompiler.Source.Cursor

/-!
# Lexical errors

Every lexical error ends the reading of a template.  A construct that is never
closed is reported where it opens.
-/

namespace TemplateCompiler

namespace Lex

/-- Why no token can be read. -/
inductive Cause where
  | unterminatedString
  | invalidEscape (escape : Char)
  | unterminatedComment
  | invalidEntity (text : String)
  | unexpectedChar (found : Char) (mode : LexMode)
  | unterminatedFrontMatter
  | unterminatedTemplate
deriving DecidableEq, Repr

namespace Cause

/-- The wording of a cause. -/
def message : Cause → String
  | .unterminatedString => "unterminated string literal"
  | .invalidEscape escape => s!"invalid escape sequence `\\{escape}`"
  | .unterminatedComment => "unterminated comment"
  | .invalidEntity text => s!"unterminated HTML entity `{text}`, expected `;`"
  | .unexpectedChar found mode => s!"unexpected character '{found}' in {mode.text}"
  | .unterminatedFrontMatter => "unterminated front matter, expected a closing `---` line"
  | .unterminatedTemplate => "unterminated template literal"

def code : Cause → ErrorCode
  | .unterminatedString => .unterminatedString
  | .invalidEscape _ => .invalidEscape
  | .unterminatedComment => .unterminatedComment
  | .invalidEntity _ => .invalidEntity
  | .unexpectedChar _ _ => .unexpectedChar
  | .unterminatedFrontMatter => .unterminatedFrontMatter
  | .unterminatedTemplate => .unterminatedTemplate

end Cause

/-- A cause and the place it is reported at. -/
structure Error where
  cause : Cause
  position : Position
deriving DecidableEq, Repr

namespace Error

/-- An error at a mark, one byte wide. -/
def atMark (cause : Cause) (mark : Mark) : Error :=
  ⟨cause, mark.position.withLength 1⟩

def text (error : Error) : String :=
  s!"{error.cause.message} at {error.position.text}"

def diagnostic (error : Error) : Diagnostic :=
  { Diagnostic.error error.cause.code with
    message := error.cause.message
    position := some error.position }

end Error

end Lex

end TemplateCompiler
