import TemplateCompiler.Text.WhiteSpace

/-!
# Error codes

Every diagnostic has a code.  Its first digit names the stage of compilation
that raises it.
-/

namespace TemplateCompiler

/-- A stage of compilation. -/
inductive Stage where
  | lexer
  | parser
  | evaluator
deriving DecidableEq, Repr

def Stage.text : Stage → String
  | .lexer => "lexer"
  | .parser => "parser"
  | .evaluator => "evaluator"

/-- What a diagnostic is about. -/
inductive ErrorCode where
  | unterminatedString
  | invalidEscape
  | unterminatedComment
  | invalidEntity
  | unexpectedChar
  | unterminatedFrontMatter
  | unterminatedTemplate
  | unexpectedToken
  | expectedToken
  | mismatchedClose
  | unclosed
  | misplacedDeclaration
  | valueNotString
  | unknownStatement
  | unexpectedBlockClose
  | undefinedVariable
  | notIterable
  | noEvaluator
  | emptyResult
deriving DecidableEq, Repr

namespace ErrorCode

/-- Every code, in numeric order. -/
def all : List ErrorCode :=
  [.unterminatedString, .invalidEscape, .unterminatedComment, .invalidEntity, .unexpectedChar,
    .unterminatedFrontMatter, .unterminatedTemplate, .unexpectedToken, .expectedToken,
    .mismatchedClose, .unclosed, .misplacedDeclaration, .valueNotString, .unknownStatement,
    .unexpectedBlockClose, .undefinedVariable, .notIterable, .noEvaluator, .emptyResult]

/-- The code as it is printed. -/
def text : ErrorCode → String
  | .unterminatedString => "E0001"
  | .invalidEscape => "E0002"
  | .unterminatedComment => "E0003"
  | .invalidEntity => "E0004"
  | .unexpectedChar => "E0005"
  | .unterminatedFrontMatter => "E0006"
  | .unterminatedTemplate => "E0007"
  | .unexpectedToken => "E1001"
  | .expectedToken => "E1002"
  | .mismatchedClose => "E1003"
  | .unclosed => "E1004"
  | .misplacedDeclaration => "E1005"
  | .valueNotString => "E1006"
  | .unknownStatement => "E1007"
  | .unexpectedBlockClose => "E1008"
  | .undefinedVariable => "E2001"
  | .notIterable => "E2002"
  | .noEvaluator => "E2003"
  | .emptyResult => "E2004"

/-- The code that a text names, in any ASCII case and with white space around
it. -/
def ofText? (name : String) : Option ErrorCode :=
  let spelling := (Text.trim name).map Char.toUpper
  all.find? (·.text == spelling)

/-- The stage that raises a code. -/
def stage : ErrorCode → Stage
  | .unterminatedString | .invalidEscape | .unterminatedComment | .invalidEntity
  | .unexpectedChar | .unterminatedFrontMatter | .unterminatedTemplate => .lexer
  | .unexpectedToken | .expectedToken | .mismatchedClose | .unclosed | .misplacedDeclaration
  | .valueNotString | .unknownStatement | .unexpectedBlockClose => .parser
  | .undefinedVariable | .notIterable | .noEvaluator | .emptyResult => .evaluator

def summary : ErrorCode → String
  | .unterminatedString => "unterminated string literal"
  | .invalidEscape => "invalid escape sequence"
  | .unterminatedComment => "unterminated comment"
  | .invalidEntity => "invalid HTML entity"
  | .unexpectedChar => "unexpected character"
  | .unterminatedFrontMatter => "unterminated front matter"
  | .unterminatedTemplate => "unterminated template literal"
  | .unexpectedToken => "unexpected token"
  | .expectedToken => "expected token"
  | .mismatchedClose => "mismatched closing tag"
  | .unclosed => "unclosed element or block"
  | .misplacedDeclaration => "misplaced declaration"
  | .valueNotString => "attribute value must be a string"
  | .unknownStatement => "unknown statement"
  | .unexpectedBlockClose => "unexpected block close"
  | .undefinedVariable => "undefined variable"
  | .notIterable => "value is not iterable"
  | .noEvaluator => "no evaluator for node kind"
  | .emptyResult => "evaluator produced no result"

end ErrorCode

end TemplateCompiler
