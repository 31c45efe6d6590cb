import TemplateCompiler.Lex.Number
import TemplateCompiler.Lex.QuotedText

/-!
# Tokens of expressions

Expressions hold names, literals and punctuation.  Marks of several characters
are read before the shorter ones they begin with.  Signs are punctuation, so a
number has none.
-/

namespace TemplateCompiler

namespace Lex

/-- The mark of two or three characters at the head of a text. -/
def longMark? : List Char → Option Punctuation
  | '=' :: '=' :: '=' :: _ => some .identical
  | '!' :: '=' :: '=' :: _ => some .notIdentical
  | '=' :: '=' :: _ => some .equal
  | '!' :: '=' :: _ => some .notEqual
  | '<' :: '=' :: _ => some .lessOrEqual
  | '>' :: '=' :: _ => some .greaterOrEqual
  | _ => none

/-- The mark that a character is inside an expression. -/
def expressionMark? (c : Char) : Option Punctuation :=
  if ['@', '#', '$', '+', '-', '*', '/', '%', '^', '&', '|', '!', '=', '<', '>', '.', ',', '(',
      ')', '[', ']', '{', '}', ':', '?'].contains c then
    Punctuation.ofChar? c
  else none

def scanExpressionMark (c : Char) (text : List Char) : Scan :=
  match longMark? (c :: text) with
  | some mark => .mark mark
  | none =>
      match expressionMark? c with
      | some mark => .mark mark
      | none => .unexpected c .expression

/-- Scans a literal or a mark of an expression. -/
def scanExpressionLiteral (c : Char) (text : List Char) : Scan :=
  match scanTemplate? (c :: text) with
  | some scan => scan
  | none =>
      match scanString? (c :: text) with
      | some scan => scan
      | none =>
          if c.isDigit then
            match readNumber? (c :: text) with
            | some (value, length) => .found (.number value) length
            | none => scanExpressionMark c text
          else scanExpressionMark c text

def scanExpression : List Char → Scan
  | [] => .ok none
  | c :: text =>
      if CharClass.isMarkupSpace c then
        let run := whitespaceRun (c :: text)
        .found (.whitespace (String.ofList run)) run.length
      else if Text.startsWith ['}', '}'] (c :: text) then .found .interpolationEnd 2
      else
        match name? CharClass.isVariableStart CharClass.isVariablePart (c :: text) with
        | some word => .found (wordKind word) word.length
        | none => scanExpressionLiteral c text

end Lex

end TemplateCompiler
