import TemplateCompiler.Lex.Lexeme

/-!
# Strings and template literals

Three readers share the shape of their answer.  In tags and expressions a
backslash stands with the next character for one character of the value.  In
style sheets it only protects the next character, and both are kept.  In a
template literal the substitutions `${ }` are kept as they are, whatever they
contain, and escapes are resolved outside of them.
-/

namespace TemplateCompiler

namespace Lex

/-- What follows an opening quote. -/
inductive QuotedBody where
  /-- The value, and the number of characters up to and with the closing
  quote. -/
  | closed (value : List Char) (length : Nat)
  /-- The character of an unknown escape, and the number of characters before
  its backslash. -/
  | badEscape (escape : Char) (before : Nat)
  /-- No closing quote. -/
  | unclosed
deriving DecidableEq, Repr

namespace QuotedBody

/-- A body with more in front of it: a part of the value and the number of
characters it was read from. -/
def prepend (part : List Char) (count : Nat) : QuotedBody → QuotedBody
  | .closed value length => .closed (part ++ value) (count + length)
  | .badEscape escape before => .badEscape escape (count + before)
  | .unclosed => .unclosed

/-- The scan of a whole literal, `text` being the literal and all that follows
it. -/
def scan (kind : String → TokenKind) (openCause : Cause) (text : List Char) : QuotedBody → Scan
  | .closed value length => .found (kind (String.ofList value)) (length + 1)
  | .badEscape escape before => .error ⟨.invalidEscape escape, before + 1, before + 3⟩
  | .unclosed => .unterminated openCause text

end QuotedBody

/-- The character that a backslash and another character stand for. -/
def resolveEscape? : Char → Option Char
  | '"' => some '"'
  | '\'' => some '\''
  | '\x60' => some '\x60'
  | '\\' => some '\\'
  | 'n' => some '\n'
  | 'r' => some '\r'
  | 't' => some '\t'
  | _ => none

/-- Reads a string after its opening quote and resolves its escapes. -/
def readQuoted (quote : Char) : List Char → QuotedBody
  | [] => .unclosed
  | c :: text =>
      if c = quote then .closed [] 1
      else if c = '\\' then
        match text with
        | [] => .unclosed
        | escape :: text =>
            match resolveEscape? escape with
            | some resolved => (readQuoted quote text).prepend [resolved] 2
            | none => .badEscape escape 0
      else (readQuoted quote text).prepend [c] 1

/-- Reads a string after its opening quote and keeps its escapes. -/
def readProtected (quote : Char) : List Char → QuotedBody
  | [] => .unclosed
  | c :: text =>
      if c = quote then .closed [] 1
      else if c = '\\' then
        match text with
        | [] => .unclosed
        | escape :: text => (readProtected quote text).prepend [c, escape] 2
      else (readProtected quote text).prepend [c] 1

/-- Reads a template literal after its opening quote; `depth` counts the braces
that are open within a substitution. -/
def readTemplate : (depth : Nat) → List Char → QuotedBody
  | _, [] => .unclosed
  | 0, '\x60' :: _ => .closed [] 1
  | 0, '\\' :: text =>
      match text with
      | [] => .unclosed
      | escape :: text =>
          match resolveEscape? escape with
          | some resolved => (readTemplate 0 text).prepend [resolved] 2
          | none => .badEscape escape 0
  | depth, '$' :: '{' :: text => (readTemplate (depth + 1) text).prepend ['$', '{'] 2
  | depth + 1, '{' :: text => (readTemplate (depth + 2) text).prepend ['{'] 1
  | depth + 1, '}' :: text => (readTemplate depth text).prepend ['}'] 1
  | depth, c :: text => (readTemplate depth text).prepend [c] 1

/-- Scans a string whose escapes are resolved, if the text begins with a
quote. -/
def scanString? : List Char → Option Scan
  | [] => none
  | c :: text =>
      if CharClass.isQuote c then
        some ((readQuoted c text).scan .string .unterminatedString (c :: text))
      else none

/-- Scans a string whose escapes are kept, if the text begins with a quote. -/
def scanProtectedString? : List Char → Option Scan
  | [] => none
  | c :: text =>
      if CharClass.isQuote c then
        some ((readProtected c text).scan .string .unterminatedString (c :: text))
      else none

/-- Scans a template literal, if the text begins with its quote. -/
def scanTemplate? : List Char → Option Scan
  | [] => none
  | c :: text =>
      if c = '\x60' then
        some ((readTemplate 0 text).scan .templateLiteral .unterminatedTemplate (c :: text))
      else none

end Lex

end TemplateCompiler
