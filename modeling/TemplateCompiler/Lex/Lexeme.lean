import TemplateCompiler.Lex.Error
import TemplateCompiler.Text.CharClass
import TemplateCompiler.Token

/-!
# Lexemes

The scanners look only at the characters ahead.  What they find there is
measured in characters from the place they start at, so a scanner never deals
with lines, columns or bytes; the lexer turns its measures into positions.
-/

namespace TemplateCompiler

namespace Lex

/-- A token at the head of a text, and the number of characters it takes. -/
structure Lexeme where
  kind : TokenKind
  length : Nat
deriving DecidableEq

/-- A lexical error in the text ahead.  It is reported `anchor` characters on,
and the scanner had read `reached` characters when it gave up. -/
structure Fault where
  cause : Cause
  anchor : Nat
  reached : Nat
deriving DecidableEq, Repr

/-- What a scanner finds: a lexeme, the end of what it can read, or a fault. -/
abbrev Scan := Except Fault (Option Lexeme)

namespace Scan

def found (kind : TokenKind) (length : Nat) : Scan :=
  .ok (some ⟨kind, length⟩)

def mark (mark : Punctuation) : Scan :=
  found (.punctuation mark) mark.spelling.length

/-- A construct that opens at the head of a text and is still open at its
end. -/
def unterminated (cause : Cause) (text : List Char) : Scan :=
  .error ⟨cause, 0, text.length⟩

/-- A character that begins no token of a mode. -/
def unexpected (c : Char) (mode : LexMode) : Scan :=
  .error ⟨.unexpectedChar c mode, 0, 0⟩

end Scan

/-- The run of markup whitespace at the head of a text. -/
def whitespaceRun (text : List Char) : List Char :=
  text.takeWhile CharClass.isMarkupSpace

/-- The name at the head of a text, for the classes of its first and its later
characters. -/
def name? (isStart isPart : Char → Bool) : List Char → Option (List Char)
  | [] => none
  | c :: text => if isStart c then some (c :: text.takeWhile isPart) else none

/-- The truth value that a word denotes, in any ASCII case. -/
def booleanWord? (word : List Char) : Option Bool :=
  if Text.equalIgnoreCase word "true".toList then some true
  else if Text.equalIgnoreCase word "false".toList then some false
  else none

/-- The token of a word in a tag or an expression. -/
def wordKind (word : List Char) : TokenKind :=
  match booleanWord? word with
  | some value => .boolean value
  | none => .identifier (String.ofList word)

end Lex

end TemplateCompiler
