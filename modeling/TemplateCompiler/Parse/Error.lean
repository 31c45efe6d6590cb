import TemplateCompiler.Lex.Error

/-!
# Parse errors

The parser reads tokens as it goes, so an error is either lexical or a token
that the grammar does not allow where it stands.
-/

namespace TemplateCompiler

namespace Parse

/-- The part of the grammar in which a token was unexpected. -/
inductive Place where
  | markup
  | script
  | tag
  | declaration
deriving DecidableEq, Repr

def Place.text : Place → String
  | .markup => "markup"
  | .script => "script"
  | .tag => "tag"
  | .declaration => "declaration"

/-- Why a sequence of tokens is no template. -/
inductive Cause where
  | unexpected (found : String) (place : Place)
  | expected (what found : String)
  | mismatchedClose (opened closed : String)
  | unexpectedClose (name : String)
  | unclosed (what : String)
  | misplacedDeclaration
  | valueNotString (found : String)
  | unknownStatement (name : String)
  | unexpectedBlockClose
deriving DecidableEq, Repr

namespace Cause

def message : Cause → String
  | .unexpected found place => s!"unexpected {found} in {place.text}"
  | .expected what found => s!"expected {what}, found {found}"
  | .mismatchedClose opened closed => s!"expected closing tag </{opened}>, found </{closed}>"
  | .unexpectedClose name => s!"closing tag </{name}> does not match any open element"
  | .unclosed what => s!"unclosed {what} at end of input"
  | .misplacedDeclaration => "declarations must be the first node"
  | .valueNotString found => s!"expected string literal after `=`, found {found}"
  | .unknownStatement name => s!"unknown statement `@{name}`"
  | .unexpectedBlockClose => "unexpected `\x7d` with no open block"

def code : Cause → ErrorCode
  | .unexpected _ _ => .unexpectedToken
  | .expected _ _ => .expectedToken
  | .mismatchedClose _ _ => .mismatchedClose
  | .unexpectedClose _ => .mismatchedClose
  | .unclosed _ => .unclosed
  | .misplacedDeclaration => .misplacedDeclaration
  | .valueNotString _ => .valueNotString
  | .unknownStatement _ => .unknownStatement
  | .unexpectedBlockClose => .unexpectedBlockClose

end Cause

/-- A lexical error, or a cause and the place it is reported at. -/
inductive Error where
  | lexical (error : Lex.Error)
  | grammatical (cause : Cause) (position : Position)
deriving DecidableEq, Repr

namespace Error

def text : Error → String
  | .lexical error => error.text
  | .grammatical cause position => s!"{cause.message} at {position.text}"

def diagnostic : Error → Diagnostic
  | .lexical error => error.diagnostic
  | .grammatical cause position =>
      { Diagnostic.error cause.code with message := cause.message, position := some position }

end Error

end Parse

end TemplateCompiler
