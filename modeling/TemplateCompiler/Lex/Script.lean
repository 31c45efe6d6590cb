import TemplateCompiler.Lex.Lexeme

/-!
# Tokens of scripts

Script code is opaque.  It is read up to the closing tag or an interpolation
delimiter, neither of which counts inside a string.  Inside a comment only the
closing tag counts.  A string ends at its quote or, unless it is quoted by
backticks, at the end of its line.
-/

namespace TemplateCompiler

namespace Lex

/-- Where a scan of script code stands. -/
inductive ScriptPlace where
  | code
  /-- Inside a string; the flag tells whether the next character is
  protected. -/
  | quoted (quote : Char) (escaped : Bool)
  | lineComment
  | blockComment
deriving DecidableEq, Repr

/-- Whether a text begins with the closing tag of a script, in any ASCII
case. -/
def closesScript (text : List Char) : Bool :=
  Text.startsWithIgnoreCase "</script>".toList text

/-- Whether script code ends before a text. -/
def endsCode (text : List Char) : Bool :=
  closesScript text || Text.startsWith ['{', '{'] text || Text.startsWith ['}', '}'] text

/-- The place after one more character of a string. -/
def ScriptPlace.afterQuoted (quote : Char) (escaped : Bool) (c : Char) : ScriptPlace :=
  if escaped then .quoted quote false
  else if c = '\\' then .quoted quote true
  else if c = quote || (c = '\n' && quote != '\x60') then .code
  else .quoted quote false

/-- The number of characters of code at the head of a text. -/
def codeLength : ScriptPlace → List Char → Nat
  | _, [] => 0
  | .code, c :: text =>
      if endsCode (c :: text) then 0
      else if c = '/' then
        match text with
        | '/' :: rest => 2 + codeLength .lineComment rest
        | '*' :: rest => 2 + codeLength .blockComment rest
        | rest => 1 + codeLength .code rest
      else if CharClass.isQuote c then 1 + codeLength (.quoted c false) text
      else 1 + codeLength .code text
  | .quoted quote escaped, c :: text =>
      1 + codeLength (ScriptPlace.afterQuoted quote escaped c) text
  | .lineComment, c :: text =>
      if closesScript (c :: text) then 0
      else if c = '\n' then 1 + codeLength .code text
      else 1 + codeLength .lineComment text
  | .blockComment, c :: text =>
      if closesScript (c :: text) then 0
      else if c = '*' then
        match text with
        | '/' :: rest => 2 + codeLength .code rest
        | rest => 1 + codeLength .blockComment rest
      else 1 + codeLength .blockComment text

/-- Scans a token of a script. -/
def scanScript (text : List Char) : Scan :=
  if closesScript text then .found .scriptEnd 9
  else if Text.startsWith ['{', '{'] text then .found .interpolationStart 2
  else if Text.startsWith ['}', '}'] text then .found .interpolationEnd 2
  else if text.isEmpty then .ok none
  else
    let length := codeLength .code text
    .found (.scriptCode (String.ofList (text.take length))) length

end Lex

end TemplateCompiler
