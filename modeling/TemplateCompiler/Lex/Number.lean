import TemplateCompiler.Lex.Lexeme
import TemplateCompiler.Number.Literal

/-!
# Numbers

A number is an optional sign, digits, an optional fraction and an optional
exponent.  A point or an exponent letter that no digits follow does not belong
to the number: `1em` is the number `1` and the unit `em`.
-/

namespace TemplateCompiler

namespace Lex

/-- The sign at the head of a text, if there is one. -/
def signPart : List Char → List Char
  | c :: _ => if c = '+' || c = '-' then [c] else []
  | [] => []

/-- The fraction at the head of a text, if there is one: a point and digits. -/
def fractionPart : List Char → List Char
  | '.' :: text =>
      let digits := text.takeWhile Char.isDigit
      if digits.isEmpty then [] else '.' :: digits
  | _ => []

/-- The exponent at the head of a text, if there is one: its letter, an optional
sign, and digits. -/
def exponentPart : List Char → List Char
  | c :: text =>
      if c = 'e' || c = 'E' then
        let sign := signPart text
        let digits := (text.drop sign.length).takeWhile Char.isDigit
        if digits.isEmpty then [] else c :: (sign ++ digits)
      else []
  | [] => []

/-- The number at the head of a text, as it is spelled. -/
def numberSpelling? (text : List Char) : Option (List Char) :=
  let sign := signPart text
  let afterSign := text.drop sign.length
  let digits := afterSign.takeWhile Char.isDigit
  if digits.isEmpty then none
  else
    let afterDigits := afterSign.dropWhile Char.isDigit
    let fraction := fractionPart afterDigits
    let exponent := exponentPart (afterDigits.drop fraction.length)
    some (sign ++ digits ++ fraction ++ exponent)

/-- The value of the number at the head of a text and its length. -/
def readNumber? (text : List Char) : Option (Float × Nat) := do
  let spelling ← numberSpelling? text
  let value ← NumberLiteral.value? spelling
  return (value, spelling.length)

end Lex

end TemplateCompiler
