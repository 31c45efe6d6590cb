import TemplateCompiler.Lex.Number
import TemplateCompiler.Lex.QuotedText

/-!
# Tokens of tags

Inside a tag stand names, strings, numbers, truth values and punctuation.  Signs
are punctuation, so a number has none.
-/

namespace TemplateCompiler

namespace Lex

/-- The mark that a character is inside a tag. -/
def tagMark? (c : Char) : Option Punctuation :=
  if ['<', '>', '=', '!', '?', ':', ';', ',', '.', '+', '-', '/', '*', '{', '}', '(', ')', '[',
      ']', '@', '&'].contains c then
    Punctuation.ofChar? c
  else none

/-- Scans a token of a tag. -/
def scanTag : List Char → Scan
  | [] => .ok none
  | c :: text =>
      if CharClass.isMarkupSpace c then
        let run := whitespaceRun (c :: text)
        .found (.whitespace (String.ofList run)) run.length
      else
        match tagMark? c with
        | some mark => .mark mark
        | none =>
            match name? CharClass.isNameStart CharClass.isNamePart (c :: text) with
            | some word => .found (wordKind word) word.length
            | none =>
                match scanString? (c :: text) with
                | some scan => scan
                | none =>
                    match readNumber? (c :: text) with
                    | some (value, length) => .found (.number value) length
                    | none => .unexpected c .tag

end Lex

end TemplateCompiler
