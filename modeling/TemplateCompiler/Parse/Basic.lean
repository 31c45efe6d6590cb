import TemplateCompiler.Parse.Error
import TemplateCompiler.Parse.State

/-!
# Parser actions

The parser looks one token ahead, decides, and takes the token.  The first
error ends it.

Several actions repeat as long as tokens of some kind follow.  They take a
`bound`, which no number of tokens that can follow exceeds; the characters of
the source give one for the whole template.
-/

namespace TemplateCompiler

/-- An action of the parser. -/
abbrev Parser := EStateM Parse.Error Parse.State

namespace Parser

/-- An action of the lexer as an action of the parser. -/
def lexing {α : Type} (action : Lexing α) : Parser α := fun state =>
  match action state.lexer with
  | .ok result lexer => .ok result { state with lexer := lexer }
  | .error error lexer => .error (.lexical error) { state with lexer := lexer }

/-- The next token, which is not taken. -/
def peek : Parser (Option Token) :=
  lexing (Lexer.peek 0)

/-- The kind of the next token, which is not taken. -/
def peekKind : Parser (Option TokenKind) :=
  return (← peek).map (·.kind)

/-- Whether the next token is of some kind. -/
def nextIs (accepts : TokenKind → Bool) : Parser Bool :=
  return (← peekKind).any accepts

def skip : Parser Unit :=
  discard (lexing Lexer.next)

def pushMode (mode : LexMode) : Parser Unit :=
  modify fun state => { state with lexer := state.lexer.pushMode mode }

def popMode : Parser Unit :=
  modify fun state => { state with lexer := state.lexer.popMode }

/-- The cursor behind the last token taken. -/
def here : Parser Cursor :=
  return (← get).lexer.taken

/-- The place of the next token, or of the end of the source. -/
def nextPosition : Parser Position := do
  match ← peek with
  | some token => return token.position
  | none => return (← get).lexer.position

/-- What a message says the next token is. -/
def found : Parser String := do
  match ← peekKind with
  | some kind => return kind.description
  | none => return "end of input"

/-- A place extended to the end of the last token taken. -/
def spanningFrom (start : Position) : Parser Position := do
  return start.withLength ((← here).mark.offset - start.offset)

/-- Fails with a cause at a place. -/
def failAt {α : Type} (cause : Parse.Cause) (position : Position) : Parser α :=
  throw (.grammatical cause position)

/-- Fails because something else was expected than the next token. -/
def failExpected {α : Type} (what : String) : Parser α := do
  failAt (.expected what (← found)) (← nextPosition)

/-- Fails because the next token cannot stand where it does. -/
def failUnexpected {α : Type} (place : Parse.Place) : Parser α := do
  failAt (.unexpected (← found) place) (← nextPosition)

/-- Takes the next token, which must be of some kind. -/
def expect (what : String) (accepts : TokenKind → Bool) : Parser Token := do
  match ← peek with
  | some token =>
      if accepts token.kind then
        skip
        return token
      else failExpected what
  | none => failExpected what

/-- Takes the next token, which must be a mark. -/
def expectMark (what : String) (mark : Punctuation) : Parser Token :=
  expect what (· == .punctuation mark)

/-- Takes the next token, which must be an identifier; gives the name and the
place. -/
def expectIdentifier (what : String) : Parser (String × Position) := do
  match ← peek with
  | some ⟨.identifier name, position⟩ =>
      skip
      return (name, position)
  | _ => failExpected what

/-- Takes tokens as long as they are of some kind. -/
def skipWhile (accepts : TokenKind → Bool) : (bound : Nat) → Parser Unit
  | 0 => pure ()
  | bound + 1 => do
      if ← nextIs accepts then
        skip
        skipWhile accepts bound

/-- Takes the whitespace that follows. -/
def skipWhitespace (bound : Nat) : Parser Unit :=
  skipWhile TokenKind.isWhitespace bound

end Parser

end TemplateCompiler
